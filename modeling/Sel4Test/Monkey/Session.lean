import Sel4Test.Monkey.Blocks

/-!
Sessions of `mnemosyne_api.cc`: `mnemosyne_sess_send` and `mnemosyne_sess_recv`.

A session has one block of 4096 bytes. `send` pads its data with zeros in the staging
page and writes the page to the block; `recv` reads the block into the page and copies
from it. A null session makes both return -1; it is left out.

The other side is `serve`, which stores what `decodeWriteBlock` yields and answers reads
with `replyReadBlock`. It is not part of the source; it says what a server has to do.

* `exchange_ends`: what `send` and then `recv` come to in every run.
* `block_roundTrips`: every encoder is undone by its decoder, and the data of `send`
  comes back from `recv`.
* `reply_out_of_memory`: not so when there is no memory for the reply.
-/

namespace Monkey

open ByteMem Dialogue Dialogue.Prog Exec

/-! ### The session -/

/-- `mnemosyne_session_s`; `client` says whether the pointer is not null. -/
structure Session where
  client : Bool
  blockId : Int64
  hasBlock : Bool
  connected : Bool
  staging : List UInt8
  staging_length : staging.length = blockSize

/-- What a function of the interface comes to. -/
inductive ApiRet
  | returns (code : ℤ)
  | undefined
  deriving DecidableEq, Repr

/-- A page with these bytes at the front and zeros after them. -/
def zeroPadded (data : List UInt8) : List UInt8 :=
  data ++ List.replicate (blockSize - data.length) 0

lemma length_zeroPadded {data : List UInt8} (h : data.length ≤ blockSize) :
    (zeroPadded data).length = blockSize := by
  rw [zeroPadded, List.length_append, List.length_replicate]
  omega

namespace Session

/-- The session can be used. -/
def Usable (sess : Session) : Prop :=
  sess.client = true ∧ sess.connected = true ∧ sess.hasBlock = true

instance (sess : Session) : Decidable sess.Usable := inferInstanceAs (Decidable (_ ∧ _))

/-- The code of a call of the protocol that failed. -/
def failure (code : ℤ) : Ret → ApiRet
  | .returns _ => .returns code
  | .undefined => .undefined

/-- `mnemosyne_sess_send`; no data is the null pointer. -/
def send (sess : Session) (data : Option (List UInt8)) : Prog UInt8 (ApiRet × Session) :=
  if ¬ sess.Usable then done (.returns (-1), sess)
  else
    match data with
    | none => done (.returns (-2), sess)
    | some data =>
        if data = [] then done (.returns (-2), sess)
        else if h : data.length ≤ blockSize then do
          let sess := { sess with staging := zeroPadded data, staging_length := length_zeroPadded h }
          match ← writeBlock2 sess.blockId sess.staging with
          | .error ret => return (failure (-4) ret, sess)
          | .ok () => return (.returns data.length, sess)
        else done (.returns (-3), sess)

/-- `mnemosyne_sess_recv` into a buffer of `size` bytes; `buf` says whether the pointer is
not null. The second component are the bytes it writes there. -/
def recv (sess : Session) (buf : Bool) (size : ℕ) :
    Prog UInt8 (ApiRet × List UInt8 × Session) :=
  if ¬ sess.Usable then done (.returns (-1), [], sess)
  else if buf = false ∨ size = 0 then done (.returns (-2), [], sess)
  else do
    match ← readBlock2 sess.blockId with
    | .error ret => return (failure (-3) ret, [], sess)
    | .ok (block, _) =>
        let copy := if size < blockSize then size else blockSize
        if h : block.length = blockSize then
          return (.returns copy, block.take copy,
            { sess with staging := block, staging_length := h })
        else return (.undefined, [], sess)

end Session

/-! ### A server -/

/-- The blocks of a server. -/
abbrev Store := Int64 → List UInt8

/-- One request is served; `dataVer` is the version that the reply names. -/
def serve (store : Store) (dataVer : Int64) : Prog UInt8 (Ret × Store) := do
  match ← recvMsg MsgType.none with
  | .error status => return (.returns status, store)
  | .ok msg =>
      if msg.type = MsgType.writeBlock then
        match ← decodeWriteBlock ArrayState.new msg with
        | .error status => return (.returns status, store)
        | .ok (id, data) =>
            let ret ← sendResponse 0 (netq dataVer) []
            return (ret, Function.update store id data)
      else if msg.type = MsgType.readBlock then
        match decodeReadBlock msg with
        | .error status => return (.returns status, store)
        | .ok id =>
            let ret ← replyReadBlock2 dataVer (store id)
            return (ret, store)
      else return (.returns .protocolError, store)

/-- Two requests are served. -/
def serveTwo (store : Store) (ver ver' : Int64) : Prog UInt8 (Ret × Ret × Store) := do
  let (ret, store) ← serve store ver
  let (ret', store) ← serve store ver'
  return (ret, ret', store)

/-- `mnemosyne_sess_send` and then `mnemosyne_sess_recv`. -/
def exchange (sess : Session) (data : List UInt8) (size : ℕ) :
    Prog UInt8 (ApiRet × ApiRet × List UInt8) := do
  let (ret, sess) ← sess.send (some data)
  let (ret', bytes, _) ← sess.recv true size
  return (ret, ret', bytes)

/-! ### Both sides -/

section Exchange

variable {sess : Session} {data : List UInt8} {size : ℕ} {ver ver' : Int64} {store : Store}
  {rest : List UInt8}

/-- The bytes of the reply to a write. -/
def writeReply (ver : Int64) : List UInt8 := frame (responseMsg 0 (netq ver) [])

/-- The number of bytes that `recv` copies. -/
def copied (size : ℕ) : ℕ := if size < blockSize then size else blockSize

/-- The session after `send`. -/
def Session.staged (sess : Session) (data : List UInt8) (h : data.length ≤ blockSize) : Session :=
  { sess with staging := zeroPadded data, staging_length := length_zeroPadded h }

lemma length_zeroPadded_lt (h : data.length ≤ blockSize) : (zeroPadded data).length < 2 ^ 63 := by
  rw [length_zeroPadded h]
  decide

lemma Session.send_eq (hsess : sess.Usable) (hne : data ≠ []) (hlen : data.length ≤ blockSize) :
    sess.send (some data) = (writeBlock2 sess.blockId (zeroPadded data)).bind fun r =>
      match r with
      | .error ret => done (failure (-4) ret, sess.staged data hlen)
      | .ok () => done (.returns data.length, sess.staged data hlen) := by
  simp only [Session.send, not_not.mpr hsess, if_false, if_neg hne, dif_pos hlen]
  rfl

lemma Session.recv_eq (hsess : sess.Usable) (hsize : size ≠ 0) :
    sess.recv true size = (readBlock2 sess.blockId).bind fun r =>
      match r with
      | .error ret => done (failure (-3) ret, [], sess)
      | .ok (block, _) =>
          if h : block.length = blockSize then
            done (.returns (copied size), block.take (copied size),
              { sess with staging := block, staging_length := h })
          else done (.undefined, [], sess) := by
  have hbuf : ¬ (true = false ∨ size = 0) := by simp [hsize]
  simp only [Session.recv, not_not.mpr hsess, if_false, if_neg hbuf]
  rfl

/-- `send` with the reply of the server to read. -/
lemma wp_send {Q : Option (ApiRet × Session) → List UInt8 → List UInt8 → Prop}
    (hsess : sess.Usable) (hne : data ≠ []) (hlen : data.length ≤ blockSize)
    (h : Q (some (.returns data.length, sess.staged data hlen)) rest
      (frame (writeMsg sess.blockId (zeroPadded data)))) :
    wp reliable (sess.send (some data)) (writeReply ver ++ rest) Q := by
  rw [Session.send_eq hsess hne hlen]
  apply wp_bind
  apply wp_request (encodes_sendWriteBlock _ (length_zeroPadded_lt hlen))
  apply wp_handleResponse (by simp)
  have height : ¬ UInt32.ofNat (netq ver).length ≠ 8 := by
    rw [length_netq]
    decide
  simp only [if_neg height]
  simpa [wp] using h

/-- `recv` with the reply of the server to read. -/
lemma wp_recv {Q : Option (ApiRet × List UInt8 × Session) → List UInt8 → List UInt8 → Prop}
    (hsess : sess.Usable) (hsize : size ≠ 0) {block : List UInt8} (hblock : block.length = blockSize)
    (h : Q (some (.returns (copied size), block.take (copied size),
        { sess with staging := block, staging_length := hblock })) rest
      (frame (idMsg MsgType.readBlock sess.blockId))) :
    wp reliable (sess.recv true size) (frame (readReplyMsg ver block) ++ rest) Q := by
  rw [Session.recv_eq hsess hsize]
  apply wp_bind
  apply wp_readBlock2 _ hblock
  simp only [dif_pos hblock]
  simpa [wp] using h

/-- A write is served. -/
lemma wp_serve_write {Q : Option (Ret × Store) → List UInt8 → List UInt8 → Prop} {id : Int64}
    (hdata : data.length < 2 ^ 63)
    (h : Q (some (.returns .success, Function.update store id data)) rest (writeReply ver)) :
    wp reliable (serve store ver) (frame (writeMsg id data) ++ rest) Q := by
  have htype : (writeMsg id data).type = MsgType.writeBlock := rfl
  apply wp_bind
  apply wp_recvMsg (fun h => h) (writeMsg id data) (by rw [length_writeMsg]; omega) (.inl rfl)
  · simp only [if_pos htype]
    apply wp_bind
    apply wp_decodeWriteBlock (by simp [Resizable, ArrayState.new])
    apply wp_bind
    apply wp_sendResponse (fun h => h) (fun h => h) (by simp)
    simpa [wp, writeReply] using h
  · exact fun hfail => hfail.elim

/-- A read of a whole block is served. -/
lemma wp_serve_read {Q : Option (Ret × Store) → List UInt8 → List UInt8 → Prop} {id : Int64}
    (hblock : (store id).length = blockSize)
    (h : Q (some (.returns .success, store)) rest (frame (readReplyMsg ver (store id)))) :
    wp reliable (serve store ver) (frame (idMsg MsgType.readBlock id) ++ rest) Q := by
  have htype : (idMsg MsgType.readBlock id).type = MsgType.readBlock := rfl
  have hother : ¬ (idMsg MsgType.readBlock id).type = MsgType.writeBlock := by
    rw [htype]
    decide
  apply wp_bind
  apply wp_recvMsg (fun h => h) (idMsg MsgType.readBlock id) (by simp [idMsg]) (.inl rfl)
  · simp only [if_neg hother, if_pos htype, decodeReadBlock, decodeId_idMsg]
    apply wp_bind
    refine wp_mono ((encodes_replyReadBlock2 hblock).succeeds rest) ?_
    rintro _ _ out ⟨rfl, rfl, rfl⟩
    simpa [wp] using h
  · exact fun hfail => hfail.elim

/-- The requests of the client. -/
def requests (sess : Session) (data : List UInt8) : List UInt8 :=
  frame (writeMsg sess.blockId (zeroPadded data)) ++ frame (idMsg MsgType.readBlock sess.blockId)

/-- The replies of the server. -/
def replies (data : List UInt8) (ver ver' : Int64) : List UInt8 :=
  writeReply ver ++ frame (readReplyMsg ver' (zeroPadded data))

lemma wp_exchange {Q : Option (ApiRet × ApiRet × List UInt8) → List UInt8 → List UInt8 → Prop}
    (hsess : sess.Usable) (hne : data ≠ []) (hlen : data.length ≤ blockSize) (hsize : size ≠ 0)
    (h : Q (some (.returns data.length, .returns (copied size),
      (zeroPadded data).take (copied size))) rest (requests sess data)) :
    wp reliable (exchange sess data size) (replies data ver ver' ++ rest) Q := by
  rw [replies, List.append_assoc]
  apply wp_bind
  apply wp_send hsess hne hlen
  apply wp_bind
  have hstaged : (sess.staged data hlen).Usable := hsess
  apply wp_recv hstaged hsize (length_zeroPadded hlen)
  simpa [wp, requests, Session.staged] using h

lemma wp_serveTwo {Q : Option (Ret × Ret × Store) → List UInt8 → List UInt8 → Prop}
    (hlen : data.length ≤ blockSize)
    (h : Q (some (.returns .success, .returns .success,
      Function.update store sess.blockId (zeroPadded data))) rest (replies data ver ver')) :
    wp reliable (serveTwo store ver ver') (requests sess data ++ rest) Q := by
  have hstored : Function.update store sess.blockId (zeroPadded data) sess.blockId =
      zeroPadded data := Function.update_self ..
  rw [requests, List.append_assoc]
  apply wp_bind
  apply wp_serve_write (length_zeroPadded_lt hlen)
  apply wp_bind
  apply wp_serve_read
  · rw [hstored, length_zeroPadded hlen]
  · rw [hstored]
    simpa [wp, replies] using h

/-- **The exchange.** In every run `send` returns the length of the data and `recv` the
data and zeros after it, as far as its buffer goes, and the server has the page. -/
lemma exchange_ends (hsess : sess.Usable) (hne : data ≠ []) (hlen : data.length ≤ blockSize)
    (hsize : size ≠ 0) {sides : List Side}
    {n : Net UInt8 (ApiRet × ApiRet × List UInt8) (Ret × Ret × Store)}
    (hrun : Runs (Net.Step reliable)
      (Net.start (exchange sess data size) (serveTwo store ver ver')) sides n) :
    Net.Outcome reliable
      (some (.returns data.length, .returns (copied size), (zeroPadded data).take (copied size)))
      (some (.returns .success, .returns .success,
        Function.update store sess.blockId (zeroPadded data))) n := by
  have hwrite : Emits reliable (exchange sess data size) []
      (frame (writeMsg sess.blockId (zeroPadded data))) := by
    apply Emits.bind
    rw [Session.send_eq hsess hne hlen]
    exact (emits_request (encodes_sendWriteBlock _ (length_zeroPadded_lt hlen))).bind
  have hfirst : Emits reliable (serveTwo store ver ver')
      (frame (writeMsg sess.blockId (zeroPadded data))) (writeReply ver) := by
    apply Emits.bind
    intro X
    apply wp_serve_write (length_zeroPadded_lt hlen)
    exact List.prefix_refl _
  have hboth : Emits reliable (exchange sess data size) (writeReply ver) (requests sess data) := by
    intro X
    apply wp_bind
    apply wp_send hsess hne hlen
    have hread : Emits reliable ((sess.staged data hlen).recv true size) []
        (frame (idMsg MsgType.readBlock sess.blockId)) := by
      have hstaged : (sess.staged data hlen).Usable := hsess
      rw [Session.recv_eq hstaged hsize]
      exact (emits_request (encodes_sendReadBlock sess.blockId)).bind
    refine wp_mono (hread.bind X) fun _ _ out hpre => ?_
    exact (List.prefix_append_right_inj _).mpr hpre
  refine Net.ends (U := requests sess data) (D := replies data ver ver') ?_ ?_ ?_ hrun
  · rw [← List.append_nil (replies data ver ver')]
    exact wp_exchange hsess hne hlen hsize ⟨rfl, rfl, rfl⟩
  · rw [← List.append_nil (requests sess data)]
    exact wp_serveTwo hlen ⟨rfl, rfl, rfl⟩
  · refine .server (.client (.server (.client .nil hwrite) hfirst) hboth) ?_
    intro X
    exact wp_serveTwo hlen (List.prefix_refl _)

end Exchange

/-- Every encoder is undone by its decoder, and what `send` was given comes back from
`recv`. -/
structure BlockRoundTrips : Prop where
  memoryNodeShowId : ∀ id, Carries (sendMemoryNodeShowId id)
    (recvPure MsgType.memoryNodeShowId decodeMemoryNodeShowId) id
  memoryNodeClockIn : ∀ tcp4Ip port, Carries (sendMemoryNodeClockIn tcp4Ip port)
    (recvPure MsgType.memoryNodeClockIn decodeMemoryNodeClockIn) (4, port, toLE 4 tcp4Ip.toNat)
  tryAlloc1 : ∀ blockSize nBlocks, Carries (sendTryAlloc1 blockSize nBlocks)
    (recvPure MsgType.tryAlloc decodeTryAlloc1) (blockSize, nBlocks)
  readBlock : ∀ id, Carries (sendReadBlock id) (recvPure MsgType.readBlock decodeReadBlock) id
  writeBlock : ∀ id data array, data.length < 2 ^ 63 → Resizable array data.length →
    Carries (sendWriteBlock id data) (recvRequest MsgType.writeBlock (decodeWriteBlock array))
      (id, data)
  freeBlock : ∀ id, Carries (sendFreeBlock id) (recvPure MsgType.freeBlock decodeFreeBlock) id
  refBlock : ∀ key, Carries (sendRefBlock key) (recvPure MsgType.refBlock decodeRefBlock) key
  unrefBlock : ∀ id, Carries (sendUnrefBlock id) (recvPure MsgType.unrefBlock decodeUnrefBlock) id
  getBlockDataVersion : ∀ id, Carries (sendGetBlockDataVersion id)
    (recvPure MsgType.getBlockDataVersion decodeGetBlockDataVersion) id
  replyTryAlloc1 : ∀ blockSize nBlocks ids capacity, 8 * ids.length < 2 ^ 63 → capacity ≠ 1 →
    Carries (replyTryAlloc1 ids) (Monkey.tryAlloc1 blockSize nBlocks capacity) ids
  replyTryAlloc2 : ∀ b, Carries (replyTryAlloc2 b) tryAlloc2 b
  replyReadBlock1 : ∀ id data, data.length < 2 ^ 63 →
    Carries (replyReadBlock1 data) (readBlock1 id data.length) data
  replyReadBlock2 : ∀ id dataVer data, data.length = blockSize →
    Carries (replyReadBlock2 dataVer data) (readBlock2 id) (data, dataVer)
  replyCheckAvailMem : ∀ availMem, Carries (replyCheckAvailMem availMem) checkAvailMem availMem
  exchange : ∀ (sess : Session) (data : List UInt8) (size : ℕ) (store : Store) (ver ver' : Int64),
    sess.Usable → data ≠ [] → data.length ≤ blockSize → size ≠ 0 →
    ∀ sides n, Runs (Net.Step reliable)
        (Net.start (Monkey.exchange sess data size) (serveTwo store ver ver')) sides n →
      Net.Outcome reliable
        (some (.returns data.length, .returns (copied size), (zeroPadded data).take (copied size)))
        (some (.returns .success, .returns .success,
          Function.update store sess.blockId (zeroPadded data))) n

/-- **Round trips of the block protocol**, on reliable sockets and with memory for
messages and arrays. -/
theorem block_roundTrips : BlockRoundTrips where
  memoryNodeShowId id := carries_id MsgType.memoryNodeShowId id
  memoryNodeClockIn := carries_memoryNodeClockIn
  tryAlloc1 := carries_tryAlloc1
  readBlock id := (carries_id MsgType.readBlock id).withMemory (by simp)
  writeBlock id data _ hdata harray := carries_writeBlock id data hdata harray
  freeBlock id := carries_id MsgType.freeBlock id
  refBlock := carries_refBlock
  unrefBlock id := carries_id MsgType.unrefBlock id
  getBlockDataVersion id := carries_id MsgType.getBlockDataVersion id
  replyTryAlloc1 blockSize nBlocks ids _ hids hcap :=
    carries_replyTryAlloc1 blockSize nBlocks ids hids hcap
  replyTryAlloc2 := carries_replyTryAlloc2
  replyReadBlock1 := carries_replyReadBlock1
  replyReadBlock2 id dataVer _ hdata := carries_replyReadBlock2 id dataVer hdata
  replyCheckAvailMem := carries_replyCheckAvailMem
  exchange _ _ _ _ _ _ hsess hne hlen hsize _ _ hrun := exchange_ends hsess hne hlen hsize hrun

/-- A session with an erased page. -/
def freshSession : Session where
  client := true
  blockId := 5
  hasBlock := true
  connected := true
  staging := List.replicate blockSize 0xFF
  staging_length := List.length_replicate

/-- A block of one byte, a list of one block, and an exchange of one byte that goes to its end. -/
theorem block_roundTrips_byte :
    Carries (sendWriteBlock 5 [7]) (recvRequest MsgType.writeBlock (decodeWriteBlock .new))
        (5, [7]) ∧
      Carries (replyTryAlloc1 [3]) (tryAlloc1 4096 1 0) [3] ∧
      Carries (replyReadBlock1 [7]) (readBlock1 5 1) [7] ∧
      Carries (replyReadBlock2 1 (zeroPadded [7])) (readBlock2 5) (zeroPadded [7], 1) ∧
      ∃ sides n, Runs (Net.Step reliable)
          (Net.start (exchange freshSession [7] 2) (serveTwo (fun _ => []) 1 2)) sides n ∧
        n.client = .done (.returns 1, .returns 2, [7, 0]) := by
  have heval : ((runFun (fun _ _ => true) Net.move
      (Net.start (exchange freshSession [7] 2) (serveTwo (fun _ => []) 1 2))
      ([(Side.client, 3), (.server, 6), (.client, 2), (.server, 1), (.client, 4), (.server, 4),
        (.client, 2), (.server, 1), (.client, 1), (.server, 1), (.client, 1), (.server, 1),
        (.client, 1), (.server, 1), (.client, 1)].flatMap fun calls =>
          List.replicate calls.2 (calls.1, true))).map fun n => n.client.result?.isSome) =
      some true := by
    decide +kernel
  obtain ⟨n, hn, hdone⟩ := Option.map_eq_some_iff.mp heval
  obtain ⟨r, hr⟩ := Option.isSome_iff_exists.mp hdone
  have hclient := Prog.eq_done hr
  have hrun := Net.runs_of_moves (F := reliable) (fun m hm => by
    obtain ⟨calls, -, hcalls⟩ := List.mem_flatMap.mp hm
    rw [List.eq_of_mem_replicate hcalls]
    exact .inl rfl) hn
  have hbyte : [(7 : UInt8)].length ≤ blockSize := by decide
  -- what the client has come to is decided by the outcome of the exchange, not by the run
  have hout := block_roundTrips.exchange freshSession [7] 2 (fun _ => []) 1 2 ⟨rfl, rfl, rfl⟩
    (by simp) hbyte (by decide) _ n hrun
  have hcopied : (zeroPadded [7]).take (copied 2) = [7, 0] := by decide
  have hresult := hout.client r hclient
  rw [hcopied] at hresult
  refine ⟨block_roundTrips.writeBlock 5 [7] .new (by decide) fun h => absurd h.2 (by decide),
    block_roundTrips.replyTryAlloc1 4096 1 [3] 0 (by decide) (by decide),
    block_roundTrips.replyReadBlock1 5 [7] (by decide),
    block_roundTrips.replyReadBlock2 5 1 _ (length_zeroPadded hbyte), _, n, hrun, ?_⟩
  rw [hclient, ← Option.some.inj hresult]
  rfl

/-- The client has no memory for the reply: `replyCheckAvailMem` has succeeded, and
`checkAvailMem` returns an error. -/
theorem reply_out_of_memory :
    ∃ sides n, Runs (Net.Step shortOfMemory)
        (Net.start checkAvailMem (replyCheckAvailMem 4096)) sides n ∧
      n.server = .done (.returns .success) ∧
      n.client = .done (.error (.returns .outOfResource)) := by
  have heval : ((runFun (fun _ _ => true) Net.move
      (Net.start checkAvailMem (replyCheckAvailMem 4096))
      ((Side.client, true) :: (List.replicate 3 (Side.server, true) ++
        [(Side.client, true), (Side.client, false)]))).map
      fun n => (n.server.result?, n.client.result?)) =
      some (some (.returns .success), some (.error (.returns .outOfResource))) := by
    decide +kernel
  obtain ⟨n, hn, hresults⟩ := Option.map_eq_some_iff.mp heval
  simp only [Prod.mk.injEq] at hresults
  have hrun := Net.runs_of_moves (F := shortOfMemory) (fun _ _ => .inr trivial) hn
  exact ⟨_, n, hrun, Prog.eq_done hresults.1, Prog.eq_done hresults.2⟩

end Monkey
