import Sel4Test.Monkey.Message

/-!
Version negotiation, the hello exchange of `monkey/net/protocol/ProtocolConnection.cc`.

The client sends the versions it offers, the server answers with those of them that
it supports, and the client names the largest of the answer. Both sides are programs
of `Dialogue`, so that a run is any interleaving of their calls over two byte streams,
with any cut of the streams.

A list of versions is one that fits in memory; the lists themselves are taken to find
the memory they need, while the allocation of a received message is a call that may
fail.

* `clientModeHello_ends`, `serverModeHello_ends`: each side on the messages of the
  other.
* `hello_agreement`: in every run without a failed allocation, both sides agree on the
  largest common version, or neither succeeds.
* `hello_no_memory`: if the server has no memory for the last message, the client
  succeeds and the server does not.
-/

namespace Monkey

open ByteMem Dialogue Dialogue.Prog Exec

/-! ### The program -/

/-- `adl::ArrayList<adl::int64_t>`, small enough for one message. -/
structure Versions where
  list : List Int64
  fits : headerSize + 8 * list.length < 2 ^ 64

/-- `htonq` on each version. -/
def encodeVersions (vs : List Int64) : List UInt8 := vs.flatMap fun v => toBE 8 v.toUInt64.toNat

/-- The loop of `recvHello`: the first `n` versions of the data. -/
def decodeVersions : ℕ → List UInt8 → List Int64
  | 0, _ => []
  | n + 1, data => (UInt64.ofNat (ofBE (data.take 8))).toInt64 :: decodeVersions n (data.drop 8)

/-- `sendHello`. -/
def sendHello (vs : List Int64) : Prog UInt8 Status := sendMsg MsgType.hello (encodeVersions vs)

/-- `recvHello`. -/
def recvHello : Prog UInt8 (Except Status (List Int64)) := do
  match ← recvMsg MsgType.hello with
  | .error status => return .error status
  | .ok msg => return .ok (decodeVersions (msg.length / 8) msg.data)

/-- Phase 3 of `serverModeHello`: the choice of the client. -/
def serverPhase3 (versionsSupported : List Int64) : Prog UInt8 (Status × Option Int64) := do
  match ← recvHello with
  | .error status => return (status, none)
  | .ok [v] =>
      if versionsSupported.contains v then return (.success, some v)
      else return (.protocolError, none)
  | .ok _ => return (.protocolError, none)

/-- `serverModeHello`: the status, and `finalVersion` where it is set. -/
def serverModeHello (protocolVersions : Versions) : Prog UInt8 (Status × Option Int64) := do
  match ← recvHello with
  | .error status => return (status, none)
  | .ok clientVers =>
      let versionsSupported := clientVers.filter fun it => protocolVersions.list.contains it
      if versionsSupported = [] then do
        let _ ← sendHello []
        return (.protocolError, none)
      else
        match ← sendHello versionsSupported with
        | .success => serverPhase3 versionsSupported
        | status => return (status, none)

/-- The loop of `clientModeHello`: the largest version of the answer that is offered. -/
def maxVersion (offered answer : List Int64) : Int64 :=
  answer.foldl (fun maxVer it => if maxVer < it ∧ offered.contains it then it else maxVer) (-1)

/-- `clientModeHello`. -/
def clientModeHello (protocolVersions : Versions) : Prog UInt8 (Status × Option Int64) := do
  if protocolVersions.list = [] then return (.invalidParameters, none)
  else
    match ← sendHello protocolVersions.list with
    | .success =>
        match ← recvHello with
        | .error status => return (status, none)
        | .ok vers =>
            let maxVer := maxVersion protocolVersions.list vers
            if maxVer = -1 then return (.protocolError, none)
            else
              match ← sendHello [maxVer] with
              | .success => return (.success, some maxVer)
              | status => return (status, none)
    | status => return (status, none)

/-! ### Hello messages -/

@[simp] lemma length_encodeVersions (vs : List Int64) :
    (encodeVersions vs).length = 8 * vs.length := by
  induction vs with
  | nil => rfl
  | cons v vs ih =>
      rw [encodeVersions, List.flatMap_cons, List.length_append, length_toBE]
      rw [encodeVersions] at ih
      rw [ih, List.length_cons]
      omega

lemma decodeVersions_encode (vs : List Int64) :
    decodeVersions vs.length (encodeVersions vs) = vs := by
  induction vs with
  | nil => rfl
  | cons v vs ih =>
      have hcons : encodeVersions (v :: vs) = toBE 8 v.toUInt64.toNat ++ encodeVersions vs := rfl
      rw [List.length_cons, hcons, decodeVersions, List.take_left' (length_toBE _ _),
        List.drop_left' (length_toBE _ _), ih, ofBE_toBE_u64]
      rfl

/-- The message of `sendHello`. -/
def helloMsg (vs : List Int64) : Msg := ⟨MsgType.hello, encodeVersions vs⟩

variable {F : Faults} {S rest : List UInt8}

lemma wp_sendHello {Q : Option Status → List UInt8 → List UInt8 → Prop} (hF : ¬ F.send)
    {vs : List Int64} (hfits : headerSize + 8 * vs.length < 2 ^ 64)
    (h : Q (some .success) S (frame (helloMsg vs))) : wp F (sendHello vs) S Q := by
  have hlen : headerSize + (helloMsg vs).data.length < 2 ^ 64 := by
    simpa [helloMsg] using hfits
  exact wp_sendMsg hF (helloMsg vs) hlen h

lemma wp_recvHello {Q : Option (Except Status (List Int64)) → List UInt8 → List UInt8 → Prop}
    (hF : ¬ F.recv) {vs : List Int64} (hfits : headerSize + 8 * vs.length < 2 ^ 64)
    (h : Q (some (.ok vs)) rest [])
    (hmem : F.alloc → Q (some (.error .outOfResource)) (encodeVersions vs ++ rest) []) :
    wp F recvHello (frame (helloMsg vs) ++ rest) Q := by
  have hlen : (helloMsg vs).data.length < 2 ^ 64 := by
    have : (helloMsg vs).data.length = 8 * vs.length := by simp [helloMsg]
    omega
  apply wp_bind
  apply wp_recvMsg hF (helloMsg vs) hlen (.inr rfl)
  · have hdecode : decodeVersions ((helloMsg vs).length / 8) (helloMsg vs).data = vs := by
      have hcount : (helloMsg vs).length / 8 = vs.length := by
        simp [Msg.length, helloMsg]
      rw [hcount]
      exact decodeVersions_encode vs
    simp only [hdecode]
    exact h
  · intro hfail
    exact hmem hfail

/-! ### The choice -/

/-- The versions of the client that the server supports. -/
def commonVersions (cv sv : List Int64) : List Int64 := cv.filter fun it => sv.contains it

lemma mem_commonVersions {cv sv : List Int64} {v : Int64} :
    v ∈ commonVersions cv sv ↔ v ∈ cv ∧ v ∈ sv := by
  simp [commonVersions]

/-- `v` is the largest version in both lists. -/
def IsLargestCommon (cv sv : List Int64) (v : Int64) : Prop :=
  (v ∈ cv ∧ v ∈ sv) ∧ ∀ w, w ∈ cv → w ∈ sv → w ≤ v

/-- The loop ends with a version of the answer or with what it started from, and with
nothing smaller than either. -/
lemma foldl_maxVersion {offered answer : List Int64} (hsub : ∀ v ∈ answer, v ∈ offered)
    (start : Int64) :
    let last := answer.foldl
      (fun maxVer it => if maxVer < it ∧ offered.contains it then it else maxVer) start
    (last = start ∨ last ∈ answer) ∧ start ≤ last ∧ ∀ v ∈ answer, v ≤ last := by
  induction answer generalizing start with
  | nil => exact ⟨.inl rfl, Int64.le_refl _, nofun⟩
  | cons v answer ih =>
      have hv : offered.contains v = true := by
        simpa using hsub v List.mem_cons_self
      have hsub' : ∀ w ∈ answer, w ∈ offered := fun w hw => hsub w (List.mem_cons_of_mem _ hw)
      simp only [List.foldl_cons, hv, and_true]
      split_ifs with hlt
      · obtain ⟨hmem, hle, hall⟩ := ih hsub' v
        refine ⟨.inr ?_, ?_, ?_⟩
        · rcases hmem with heq | hmem
          · rw [heq]
            exact List.mem_cons_self
          · exact List.mem_cons_of_mem _ hmem
        · exact Int64.le_trans (Int64.le_of_lt hlt) hle
        · rw [List.forall_mem_cons]
          exact ⟨hle, hall⟩
      · obtain ⟨hmem, hle, hall⟩ := ih hsub' start
        refine ⟨hmem.imp_right (List.mem_cons_of_mem _), hle, ?_⟩
        rw [List.forall_mem_cons]
        exact ⟨Int64.le_trans (Int64.not_lt.mp hlt) hle, hall⟩

/-- With a common version, the client chooses the largest. -/
lemma maxVersion_largest {cv sv : List Int64} (hpos : ∀ v ∈ cv, 0 ≤ v)
    (hcommon : commonVersions cv sv ≠ []) :
    maxVersion cv (commonVersions cv sv) ≠ -1 ∧
      IsLargestCommon cv sv (maxVersion cv (commonVersions cv sv)) := by
  obtain ⟨hmem, -, hall⟩ := foldl_maxVersion
    (fun v (hv : v ∈ commonVersions cv sv) => (mem_commonVersions.mp hv).1) (-1)
  change maxVersion cv (commonVersions cv sv) = -1 ∨ _ at hmem
  change ∀ v ∈ commonVersions cv sv, v ≤ maxVersion cv (commonVersions cv sv) at hall
  obtain ⟨v, rest, hv⟩ := List.exists_cons_of_ne_nil hcommon
  have hv' : v ∈ commonVersions cv sv := by
    rw [hv]
    exact List.mem_cons_self
  have hne : maxVersion cv (commonVersions cv sv) ≠ -1 := by
    intro heq
    have hle := hall v hv'
    rw [heq] at hle
    have hzero := hpos v (mem_commonVersions.mp hv').1
    exact absurd (Int64.le_trans hzero hle) (by decide)
  refine ⟨hne, ?_, ?_⟩
  · exact mem_commonVersions.mp (hmem.resolve_left hne)
  · exact fun w hc hs => hall w (mem_commonVersions.mpr ⟨hc, hs⟩)

lemma maxVersion_nil (cv : List Int64) : maxVersion cv [] = -1 := rfl

/-! ### Each side on the messages of the other -/

section Sides

variable (cv sv : Versions)

/-- The first message. -/
def offer : List UInt8 := frame (helloMsg cv.list)

/-- The answer of the server. -/
def answer : List UInt8 := frame (helloMsg (commonVersions cv.list sv.list))

/-- The last message. -/
def choice : List UInt8 :=
  frame (helloMsg [maxVersion cv.list (commonVersions cv.list sv.list)])

lemma common_fits : headerSize + 8 * (commonVersions cv.list sv.list).length < 2 ^ 64 := by
  have hle : (commonVersions cv.list sv.list).length ≤ cv.list.length := List.length_filter_le _ _
  have := cv.fits
  omega

variable {cv sv}

/-- The client with the answer to read: it offers, chooses and is done. -/
lemma wp_clientModeHello {Q : Option (Status × Option Int64) → List UInt8 → List UInt8 → Prop}
    (hne : cv.list ≠ [])
    (hchoice : maxVersion cv.list (commonVersions cv.list sv.list) ≠ -1 →
      Q (some (.success, some (maxVersion cv.list (commonVersions cv.list sv.list)))) rest
        (offer cv ++ choice cv sv))
    (hnone : maxVersion cv.list (commonVersions cv.list sv.list) = -1 →
      Q (some (.protocolError, none)) rest (offer cv)) :
    wp reliable (clientModeHello cv) (answer cv sv ++ rest) Q := by
  rw [clientModeHello, if_neg hne]
  apply wp_bind
  apply wp_sendHello (fun h => h) cv.fits
  apply wp_bind
  apply wp_recvHello (fun h => h) (common_fits cv sv)
  · by_cases hmax : maxVersion cv.list (commonVersions cv.list sv.list) = -1
    · simp only [if_pos hmax]
      simpa [wp, offer] using hnone hmax
    · simp only [if_neg hmax]
      apply wp_bind
      apply wp_sendHello (fun h => h) (by norm_num [headerSize])
      simpa [wp, offer, choice] using hchoice hmax
  · exact fun h => h.elim

/-- The server with the offer to read: it answers with the common versions, and goes on
to phase 3 if there are any. -/
lemma wp_serverModeHello {Q : Option (Status × Option Int64) → List UInt8 → List UInt8 → Prop}
    (hcommon : commonVersions cv.list sv.list ≠ [] →
      wp reliable (serverPhase3 (commonVersions cv.list sv.list)) rest fun r rest' out =>
        Q r rest' (answer cv sv ++ out))
    (hnone : commonVersions cv.list sv.list = [] →
      Q (some (.protocolError, none)) rest (answer cv sv)) :
    wp reliable (serverModeHello sv) (offer cv ++ rest) Q := by
  apply wp_bind
  apply wp_recvHello (fun h => h) cv.fits
  · by_cases hnil : commonVersions cv.list sv.list = []
    · have hanswer : answer cv sv = frame (helloMsg []) := by rw [answer, hnil]
      rw [commonVersions] at hnil
      simp only [if_pos hnil]
      apply wp_bind
      apply wp_sendHello (fun h => h) (by norm_num [headerSize])
      simpa [wp, hanswer] using hnone hnil
    · have hne := hcommon hnil
      rw [commonVersions] at hnil
      simp only [if_neg hnil]
      apply wp_bind
      apply wp_sendHello (fun h => h) (common_fits cv sv)
      exact hne
  · exact fun h => h.elim

/-- Phase 3 with the choice to read. -/
lemma wp_serverPhase3 {Q : Option (Status × Option Int64) → List UInt8 → List UInt8 → Prop}
    {v : Int64} (hv : v ∈ commonVersions cv.list sv.list)
    (h : Q (some (.success, some v)) rest []) :
    wp reliable (serverPhase3 (commonVersions cv.list sv.list))
      (frame (helloMsg [v]) ++ rest) Q := by
  apply wp_bind
  apply wp_recvHello (fun h => h) (by norm_num [headerSize])
  · have hcontains : (commonVersions cv.list sv.list).contains v = true := by simpa using hv
    simp only [hcontains, if_true]
    exact h
  · exact fun h => h.elim

end Sides

/-! ### Both sides -/

/-- The two sides before the first call. -/
abbrev helloNet (cv sv : Versions) : Net UInt8 (Status × Option Int64) (Status × Option Int64) :=
  Net.start (clientModeHello cv) (serverModeHello sv)

variable {cv sv : Versions} {sides : List Side}
  {n : Net UInt8 (Status × Option Int64) (Status × Option Int64)}

lemma emits_offer (hne : cv.list ≠ []) :
    Emits reliable (clientModeHello cv) [] (offer cv) := by
  intro X
  rw [clientModeHello, if_neg hne]
  apply wp_bind
  apply wp_sendHello (fun h => h) cv.fits
  exact wp_mono (wp_true _ _ _) fun _ _ out _ => List.prefix_append _ _

lemma emits_answer : Emits reliable (serverModeHello sv) (offer cv) (answer cv sv) := by
  intro X
  apply wp_serverModeHello
  · intro _
    exact wp_mono (wp_true _ _ _) fun _ _ out _ => List.prefix_append _ _
  · intro _
    exact List.prefix_refl _

/-- With a common version, both sides come to the largest one. -/
lemma hello_common (hpos : ∀ v ∈ cv.list, 0 ≤ v) (hcommon : commonVersions cv.list sv.list ≠ [])
    (hrun : Runs (Net.Step reliable) (helloNet cv sv) sides n) :
    Net.Outcome reliable
      (some (.success, some (maxVersion cv.list (commonVersions cv.list sv.list))))
      (some (.success, some (maxVersion cv.list (commonVersions cv.list sv.list)))) n := by
  obtain ⟨hmax, hlargest⟩ := maxVersion_largest hpos hcommon
  have hne : cv.list ≠ [] := List.ne_nil_of_mem hlargest.1.1
  have hmem := mem_commonVersions.mpr hlargest.1
  refine Net.ends (U := offer cv ++ choice cv sv) (D := answer cv sv) ?_ ?_ ?_ hrun
  · rw [← List.append_nil (answer cv sv)]
    apply wp_clientModeHello hne
    · exact fun _ => ⟨rfl, rfl, rfl⟩
    · exact fun hno => absurd hno hmax
  · apply wp_serverModeHello
    · intro _
      rw [choice, ← List.append_nil (frame _)]
      apply wp_serverPhase3 hmem
      exact ⟨rfl, rfl, List.append_nil _⟩
    · exact fun hnil => absurd hnil hcommon
  · refine .client (.server (.client .nil (emits_offer hne)) emits_answer) ?_
    intro X
    apply wp_clientModeHello hne
    · exact fun _ => List.prefix_refl _
    · exact fun hno => absurd hno hmax

/-- Without a common version, neither side succeeds. -/
lemma hello_none (hne : cv.list ≠ []) (hnil : commonVersions cv.list sv.list = [])
    (hrun : Runs (Net.Step reliable) (helloNet cv sv) sides n) :
    Net.Outcome reliable (some (.protocolError, none)) (some (.protocolError, none)) n := by
  have hmax : maxVersion cv.list (commonVersions cv.list sv.list) = -1 := by
    rw [hnil, maxVersion_nil]
  refine Net.ends (U := offer cv) (D := answer cv sv) ?_ ?_ ?_ hrun
  · rw [← List.append_nil (answer cv sv)]
    apply wp_clientModeHello hne
    · exact fun hno => absurd hmax hno
    · exact fun _ => ⟨rfl, rfl, rfl⟩
  · rw [← List.append_nil (offer cv)]
    apply wp_serverModeHello
    · exact fun hno => absurd hnil hno
    · exact fun _ => ⟨rfl, rfl, rfl⟩
  · exact .server (.client .nil (emits_offer hne)) emits_answer

/-- A client without versions gives up at once, and the server waits. -/
lemma hello_empty (hnil : cv.list = [])
    (hrun : Runs (Net.Step reliable) (helloNet cv sv) sides n) :
    Net.Outcome reliable (some (.invalidParameters, none)) none n := by
  refine Net.ends (U := []) (D := []) ?_ ?_ .nil hrun
  · rw [clientModeHello, if_pos hnil]
    exact ⟨rfl, rfl, rfl⟩
  · apply wp_bind
    apply wp_bind
    exact wp_recvMsg_nil (fun h => h) _ ⟨rfl, rfl, rfl⟩

/-- Without a common version neither side is ever done with success. -/
lemma hello_fails (hnone : ¬ ∃ v, v ∈ cv.list ∧ v ∈ sv.list)
    (hrun : Runs (Net.Step reliable) (helloNet cv sv) sides n) :
    (∀ r, n.client = .done r → r.1 ≠ .success) ∧ ∀ r, n.server = .done r → r.1 ≠ .success := by
  have hnil : commonVersions cv.list sv.list = [] := by
    rw [List.eq_nil_iff_forall_not_mem]
    exact fun v hv => hnone ⟨v, mem_commonVersions.mp hv⟩
  by_cases hne : cv.list = []
  · have hout := hello_empty hne hrun
    constructor
    · intro r hr
      rw [← Option.some.inj (hout.client r hr)]
      decide
    · intro r hr
      cases hout.server r hr
  · have hout := hello_none hne hnil hrun
    constructor
    · intro r hr
      rw [← Option.some.inj (hout.client r hr)]
      decide
    · intro r hr
      rw [← Option.some.inj (hout.server r hr)]
      decide

/-- **Version agreement.** In every run of client and server, over reliable streams and
with memory for the messages: if the lists have a common version, a side that is done
has succeeded with the largest one, and the run only stops with both sides done; if
they have none, no side succeeds. No run stops with one side successful and the other
not, and every run stops. -/
theorem hello_agreement (cv sv : Versions) (hpos : ∀ v ∈ cv.list, 0 ≤ v) (sides : List Side)
    (n : Net UInt8 (Status × Option Int64) (Status × Option Int64))
    (hrun : Runs (Net.Step reliable) (helloNet cv sv) sides n) :
    ((∃ v, v ∈ cv.list ∧ v ∈ sv.list) →
      ∃ v, IsLargestCommon cv.list sv.list v ∧
        Net.Outcome reliable (some (.success, some v)) (some (.success, some v)) n) ∧
    ((¬ ∃ v, v ∈ cv.list ∧ v ∈ sv.list) →
      (∀ r, n.client = .done r → r.1 ≠ .success) ∧ ∀ r, n.server = .done r → r.1 ≠ .success) ∧
    (Net.Stuck reliable n →
      ((∃ v, n.client = .done (.success, v)) ↔ ∃ v, n.server = .done (.success, v))) ∧
    WellFounded fun n' n : Net UInt8 (Status × Option Int64) (Status × Option Int64) =>
      ∃ side, Net.Step reliable n side n' := by
  have hcommon : (∃ v, v ∈ cv.list ∧ v ∈ sv.list) →
      ∃ v, IsLargestCommon cv.list sv.list v ∧
        Net.Outcome reliable (some (.success, some v)) (some (.success, some v)) n := by
    rintro ⟨v, hv⟩
    have hne : commonVersions cv.list sv.list ≠ [] :=
      List.ne_nil_of_mem (mem_commonVersions.mpr hv)
    exact ⟨_, (maxVersion_largest hpos hne).2, hello_common hpos hne hrun⟩
  refine ⟨hcommon, fun hnone => hello_fails hnone hrun, fun hstuck => ?_, Net.step_wellFounded⟩
  by_cases h : ∃ v, v ∈ cv.list ∧ v ∈ sv.list
  · obtain ⟨v, -, hout⟩ := hcommon h
    exact iff_of_true ⟨some v, hout.client_ends hstuck _ rfl⟩ ⟨some v, hout.server_ends hstuck _ rfl⟩
  · obtain ⟨hclient, hserver⟩ := hello_fails h hrun
    refine iff_of_false ?_ ?_
    · rintro ⟨v, hv⟩
      exact hclient _ hv rfl
    · rintro ⟨v, hv⟩
      exact hserver _ hv rfl

/-- Versions 2, 5 and 3. -/
def someVersions : Versions := ⟨[2, 5, 3], by decide⟩

/-- Versions 3, 2 and 7. -/
def otherVersions : Versions := ⟨[3, 2, 7], by decide⟩

/-- One call after the other: the offer, the answer, the choice. The last allocation of
the server is answered by `ok`. -/
def helloMoves (ok : Bool) : List (Side × Bool) :=
  List.replicate 2 (Side.client, true) ++ List.replicate 5 (Side.server, true) ++
    List.replicate 5 (Side.client, true) ++ [(Side.server, true), (Side.server, ok)]

/-- A run in which both sides come to version 3. -/
theorem hello_agreement_three :
    ∃ sides n, Runs (Net.Step reliable) (helloNet someVersions otherVersions) sides n ∧
      n.client = .done (.success, some 3) ∧ n.server = .done (.success, some 3) ∧
      IsLargestCommon someVersions.list otherVersions.list 3 := by
  have heval : ((runFun (fun _ _ => true) Net.move (helloNet someVersions otherVersions)
      (helloMoves true ++ [(.server, true)])).map
        fun n => (n.client.result?, n.server.result?)) =
      some (some (.success, some 3), some (.success, some 3)) := by
    decide +kernel
  obtain ⟨n, hn, hresults⟩ := Option.map_eq_some_iff.mp heval
  simp only [Prod.mk.injEq] at hresults
  have hclient := Prog.eq_done hresults.1
  have hmoves : ∀ m ∈ helloMoves true ++ [(Side.server, true)], m.2 = true := by decide
  have hrun := Net.runs_of_moves (F := reliable) (fun m hm => .inl (hmoves m hm)) hn
  have hpos : ∀ v ∈ [(2 : Int64), 5, 3], 0 ≤ v := by
    simp only [List.forall_mem_cons]
    exact ⟨by decide, by decide, by decide, by simp⟩
  obtain ⟨v, hlargest, hout⟩ :=
    (hello_agreement someVersions otherVersions hpos _ n hrun).1 ⟨3, by decide, by decide⟩
  obtain rfl : v = 3 := by
    have hv := hout.client _ hclient
    simpa using hv
  exact ⟨_, n, hrun, hclient, Prog.eq_done hresults.2, hlargest⟩

/-- The server has no memory for the last message: the client has succeeded, and the
server reports an error. -/
theorem hello_no_memory :
    ∃ sides n, Runs (Net.Step shortOfMemory) (helloNet someVersions otherVersions) sides n ∧
      n.client = .done (.success, some 3) ∧ n.server = .done (.outOfResource, none) := by
  have heval : ((runFun (fun _ _ => true) Net.move (helloNet someVersions otherVersions)
      (helloMoves false)).map fun n => (n.client.result?, n.server.result?)) =
      some (some (.success, some 3), some (.outOfResource, none)) := by
    decide +kernel
  obtain ⟨n, hn, hresults⟩ := Option.map_eq_some_iff.mp heval
  simp only [Prod.mk.injEq] at hresults
  have hrun := Net.runs_of_moves (F := shortOfMemory) (fun _ _ => .inr trivial) hn
  exact ⟨_, n, hrun, Prog.eq_done hresults.1, Prog.eq_done hresults.2⟩

end Monkey
