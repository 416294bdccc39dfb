import Sel4Test.Monkey.Rc4
import Sel4Test.Monkey.Response

/-!
Authentication, `Protocol1Connection::auth` in client and in server mode.

The server sends a challenge, the client answers with the challenge under its key, and
the server looks for a key of its keyrings that gives the same bytes: first among the
applications, then among the memory nodes. Either keyring may be missing. What the
server found is kept in `nodeType`, and the code of its response is computed from that
field. The field starts as `Other`, and only the check of the memory nodes sets it to
`Unknown`; without a keyring of memory nodes it stays what it was. The copies of
challenge and cipher are taken to be allocated.

* `checkNode_spec`: the outcome of the two checks.
* `auth_ends`: what client and server come to in every run.
* `auth_agrees_iff`: client and server agree with the keyrings if and only if no key
  that is used is empty, and an application matches, or there is a keyring of memory
  nodes, or `nodeType` was `Unknown` already.
* `auth_admits_anyone`: without keyrings every client is told that it is accepted.
-/

namespace Monkey

open ByteMem Dialogue Dialogue.Prog Exec

/-! ### The program -/

/-- `NodeType`. -/
inductive NodeType
  | memoryNode
  | app
  | unknown
  | other
  deriving DecidableEq, Repr

/-- The fields of the connection that `auth` writes. -/
structure Node where
  nodeType : NodeType
  appId : Int64
  deriving DecidableEq, Repr

/-- A new connection. -/
def Node.initial : Node := ⟨.other, -1⟩

/-- The keys of the applications, in the order of the map. -/
abbrev AppsKeyring := List (Int64 × List UInt8)

/-- The keys of the memory nodes. -/
abbrev MemoryNodesKeyring := List (List UInt8)

/-- A challenge; its length is sent in 32 bits. -/
structure Challenge where
  bytes : List UInt8
  fits : bytes.length < 2 ^ 32

/-- The challenge of the source, `fyt's score is A+`. -/
def sourceChallenge : Challenge :=
  ⟨[0x66, 0x79, 0x74, 0x27, 0x73, 0x20, 0x73, 0x63, 0x6F, 0x72, 0x65, 0x20, 0x69, 0x73, 0x20,
    0x41, 0x2B], by decide⟩

/-- `sendAuth`. -/
def sendAuth (challenge : List UInt8) : Prog UInt8 Status := sendMsg MsgType.auth challenge

/-- `recvAuth`, into an array that is new. -/
def recvAuth : Prog UInt8 (Except Status (List UInt8)) := do
  match ← recvMsg MsgType.auth with
  | .error status => return .error status
  | .ok msg =>
      if msg.data = [] then return .ok []
      else if ← new then return .ok msg.data
      else return .error .outOfResource

/-- The last part of `auth` of the client: the verdict of the server. -/
def recvVerdict : Prog UInt8 Ret := do
  match ← recvResponse with
  | .error ret => return ret
  | .ok response => return .returns (if response.code ≠ 0 then .protocolError else .success)

/-- `auth` of the client. -/
def authClient (key : List UInt8) : Prog UInt8 Ret := do
  match ← recvAuth with
  | .error status => return .returns status
  | .ok challenge =>
      match rc4 challenge key with
      | none => return .undefined
      | some cipher =>
          match ← sendResponse 0 cipher [] with
          | .returns .success => recvVerdict
          | ret => return ret

/-- The loop over the applications: the id of the first whose key verifies. -/
def verifyApps (challenge cipher : List UInt8) : AppsKeyring → Option (Option Int64)
  | [] => some none
  | (id, key) :: keyring =>
      match rc4Verify key challenge cipher with
      | none => none
      | some true => some (some id)
      | some false => verifyApps challenge cipher keyring

/-- The check of the memory nodes, on a client that is no application. -/
def checkMemoryNode (challenge cipher : List UInt8) (memoryNodes : Option MemoryNodesKeyring)
    (node : Node) : Option Node :=
  match memoryNodes with
  | none => some node
  | some keyring =>
      match rc4VerifyKeyring cipher challenge 0 keyring with
      | none => none
      | some i =>
          if i ≠ -1 then some { node with nodeType := .memoryNode }
          else some { node with nodeType := .unknown }

/-- The two checks of the server. -/
def checkNode (challenge cipher : List UInt8) (apps : Option AppsKeyring)
    (memoryNodes : Option MemoryNodesKeyring) (node : Node) : Option Node :=
  match verifyApps challenge cipher (apps.getD []) with
  | none => none
  | some (some id) => some ⟨.app, id⟩
  | some none => checkMemoryNode challenge cipher memoryNodes node

/-- `auth` of the server; the second component are the fields it leaves. -/
def authServer (challenge : Challenge) (apps : Option AppsKeyring)
    (memoryNodes : Option MemoryNodesKeyring) (node : Node) : Prog UInt8 (Ret × Node) := do
  match ← sendAuth challenge.bytes with
  | .success =>
      match ← recvResponse with
      | .error ret => return (ret, node)
      | .ok response =>
          if response.msg.length < response.msgLen.toNat then return (.undefined, node)
          else
            let cipher := response.msg.take response.msgLen.toNat
            match checkNode challenge.bytes cipher apps memoryNodes node with
            | none => return (.undefined, node)
            | some node => do
                match ← sendResponse (if node.nodeType = .unknown then 1 else 0) [] [] with
                | .undefined => return (.undefined, node)
                | .returns _ => return (.returns .success, node)
  | status => return (.returns status, node)

/-! ### The checks -/

/-- The keys of both keyrings, in the order in which they are tried. -/
def suppliedKeys (apps : Option AppsKeyring) (memoryNodes : Option MemoryNodesKeyring) :
    List (List UInt8) :=
  (apps.getD []).map Prod.snd ++ memoryNodes.getD []

/-- The keys that are tried: those up to the first that verifies. -/
def triedKeys (challenge cipher : List UInt8) : List (List UInt8) → List (List UInt8)
  | [] => []
  | key :: keys =>
      if Verifies challenge cipher key then [key] else key :: triedKeys challenge cipher keys

/-- The cipher comes from some key of the keyrings. -/
def Authentic (challenge cipher : List UInt8) (apps : Option AppsKeyring)
    (memoryNodes : Option MemoryNodesKeyring) : Prop :=
  ∃ key ∈ suppliedKeys apps memoryNodes, Verifies challenge cipher key

/-- The fields name an entry of the keyrings whose key gives the cipher. -/
def Identifies (challenge cipher : List UInt8) (apps : Option AppsKeyring)
    (memoryNodes : Option MemoryNodesKeyring) (node : Node) : Prop :=
  (node.nodeType = .app ∧ ∃ key, (node.appId, key) ∈ apps.getD [] ∧ Verifies challenge cipher key) ∨
    (node.nodeType = .memoryNode ∧ ∃ key ∈ memoryNodes.getD [], Verifies challenge cipher key)

section Checks

variable {challenge cipher : List UInt8}

/-- The loop over the applications. -/
lemma verifyApps_spec (keyring : AppsKeyring) (keys : List (List UInt8))
    (hempty : [] ∉ triedKeys challenge cipher (keyring.map Prod.snd ++ keys)) :
    (∃ id key, verifyApps challenge cipher keyring = some (some id) ∧ (id, key) ∈ keyring ∧
        Verifies challenge cipher key) ∨
      (verifyApps challenge cipher keyring = some none ∧
        (∀ e ∈ keyring, ¬ Verifies challenge cipher e.2) ∧ [] ∉ triedKeys challenge cipher keys) := by
  induction keyring with
  | nil => exact .inr ⟨rfl, by simp, hempty⟩
  | cons e keyring ih =>
      obtain ⟨id, key⟩ := e
      simp only [List.map_cons, List.cons_append, triedKeys] at hempty
      by_cases hver : Verifies challenge cipher key
      · refine .inl ⟨id, key, ?_, List.mem_cons_self, hver⟩
        rw [verifyApps, rc4Verify_eq hver.ne_nil]
        simp [hver]
      · rw [if_neg hver, List.mem_cons, not_or] at hempty
        have hkey : key ≠ [] := fun h => hempty.1 h.symm
        have hstep : verifyApps challenge cipher ((id, key) :: keyring) =
            verifyApps challenge cipher keyring := by
          rw [verifyApps, rc4Verify_eq hkey]
          simp [hver]
        rw [hstep]
        rcases ih hempty.2 with ⟨id', key', heq, hmem, hver'⟩ | ⟨heq, hno, hrest⟩
        · exact .inl ⟨id', key', heq, List.mem_cons_of_mem _ hmem, hver'⟩
        · refine .inr ⟨heq, ?_, hrest⟩
          rw [List.forall_mem_cons]
          exact ⟨hver, hno⟩

/-- An empty key that is tried has no result, in this loop or in the one after it. -/
lemma verifyApps_of_empty (keyring : AppsKeyring) (keys : List (List UInt8))
    (hempty : [] ∈ triedKeys challenge cipher (keyring.map Prod.snd ++ keys)) :
    verifyApps challenge cipher keyring = none ∨
      verifyApps challenge cipher keyring = some none ∧ [] ∈ triedKeys challenge cipher keys := by
  induction keyring with
  | nil => exact .inr ⟨rfl, hempty⟩
  | cons e keyring ih =>
      obtain ⟨id, key⟩ := e
      simp only [List.map_cons, List.cons_append, triedKeys] at hempty
      by_cases hver : Verifies challenge cipher key
      · rw [if_pos hver, List.mem_singleton] at hempty
        exact absurd hempty.symm hver.ne_nil
      · rw [if_neg hver, List.mem_cons] at hempty
        by_cases hkey : key = []
        · left
          rw [hkey, verifyApps, rc4Verify_nil]
        · rw [verifyApps, rc4Verify_eq hkey]
          simp only [hver, decide_false]
          exact ih (hempty.resolve_left fun h => hkey h.symm)

/-- The loop over the memory nodes, which exchanges challenge and cipher. -/
lemma rc4VerifyKeyring_spec (i : ℕ) (keyring : MemoryNodesKeyring)
    (hempty : [] ∉ triedKeys challenge cipher keyring) :
    (∃ j key, rc4VerifyKeyring cipher challenge i keyring = some j ∧ j ≠ -1 ∧ key ∈ keyring ∧
        Verifies challenge cipher key) ∨
      (rc4VerifyKeyring cipher challenge i keyring = some (-1) ∧
        ∀ key ∈ keyring, ¬ Verifies challenge cipher key) := by
  induction keyring generalizing i with
  | nil => exact .inr ⟨rfl, by simp⟩
  | cons key keyring ih =>
      rw [triedKeys] at hempty
      by_cases hver : Verifies challenge cipher key
      · refine .inl ⟨i, key, ?_, by omega, List.mem_cons_self, hver⟩
        rw [rc4VerifyKeyring, rc4Verify_eq hver.ne_nil]
        simp [verifies_swap.mpr hver]
      · rw [if_neg hver, List.mem_cons, not_or] at hempty
        have hkey : key ≠ [] := fun h => hempty.1 h.symm
        have hswap : ¬ Verifies cipher challenge key := fun h => hver (verifies_swap.mp h)
        have hstep : rc4VerifyKeyring cipher challenge i (key :: keyring) =
            rc4VerifyKeyring cipher challenge (i + 1) keyring := by
          rw [rc4VerifyKeyring, rc4Verify_eq hkey]
          simp [hswap]
        rw [hstep]
        rcases ih (i + 1) hempty.2 with ⟨j, key', heq, hj, hmem, hver'⟩ | ⟨heq, hno⟩
        · exact .inl ⟨j, key', heq, hj, List.mem_cons_of_mem _ hmem, hver'⟩
        · refine .inr ⟨heq, ?_⟩
          rw [List.forall_mem_cons]
          exact ⟨hver, hno⟩

lemma rc4VerifyKeyring_of_empty (i : ℕ) (keyring : MemoryNodesKeyring)
    (hempty : [] ∈ triedKeys challenge cipher keyring) :
    rc4VerifyKeyring cipher challenge i keyring = none := by
  induction keyring generalizing i with
  | nil => simp [triedKeys] at hempty
  | cons key keyring ih =>
      rw [triedKeys] at hempty
      by_cases hver : Verifies challenge cipher key
      · rw [if_pos hver, List.mem_singleton] at hempty
        exact absurd hempty.symm hver.ne_nil
      · rw [if_neg hver, List.mem_cons] at hempty
        by_cases hkey : key = []
        · rw [hkey, rc4VerifyKeyring, rc4Verify_nil]
        · have hswap : ¬ Verifies cipher challenge key := fun h => hver (verifies_swap.mp h)
          rw [rc4VerifyKeyring, rc4Verify_eq hkey]
          simp only [hswap, decide_false]
          exact ih (i + 1) (hempty.resolve_left fun h => hkey h.symm)

variable {apps : Option AppsKeyring} {memoryNodes : Option MemoryNodesKeyring} {node : Node}

/-- A client is checked by a key that verifies, or by the keyring of the memory nodes,
or not at all. -/
def Checked (challenge cipher : List UInt8) (apps : Option AppsKeyring)
    (memoryNodes : Option MemoryNodesKeyring) (node : Node) : Prop :=
  (∃ e ∈ apps.getD [], Verifies challenge cipher e.2) ∨ memoryNodes ≠ none ∨
    node.nodeType = .unknown

/-- **The outcome of the checks**, when no empty key is tried: an entry that verifies is
found, or `nodeType` becomes `Unknown`, or nothing is checked and the fields stay. -/
lemma checkNode_spec (node : Node)
    (hempty : [] ∉ triedKeys challenge cipher (suppliedKeys apps memoryNodes)) :
    ∃ node', checkNode challenge cipher apps memoryNodes node = some node' ∧
      (Authentic challenge cipher apps memoryNodes ∧ node'.nodeType ≠ .unknown ∧
          Identifies challenge cipher apps memoryNodes node' ∧
          Checked challenge cipher apps memoryNodes node ∨
        ¬ Authentic challenge cipher apps memoryNodes ∧
          (memoryNodes ≠ none ∧ node'.nodeType = .unknown ∨
            ¬ (∃ e ∈ apps.getD [], Verifies challenge cipher e.2) ∧ memoryNodes = none ∧
              node' = node)) := by
  -- the applications come first, and only where none of them verifies the memory nodes
  rcases verifyApps_spec (apps.getD []) (memoryNodes.getD []) hempty with
    ⟨id, key, heq, hmem, hver⟩ | ⟨heq, hno, hrest⟩
  · refine ⟨⟨.app, id⟩, ?_, .inl ⟨⟨key, ?_, hver⟩, by simp, .inl ⟨rfl, key, hmem, hver⟩, ?_⟩⟩
    · rw [checkNode, heq]
    · exact List.mem_append_left _ (List.mem_map.mpr ⟨(id, key), hmem, rfl⟩)
    · exact .inl ⟨(id, key), hmem, hver⟩
  · have hnoApp : ¬ ∃ e ∈ apps.getD [], Verifies challenge cipher e.2 := by
      rintro ⟨e, he, hver⟩
      exact hno e he hver
    have hcheck : checkNode challenge cipher apps memoryNodes node =
        checkMemoryNode challenge cipher memoryNodes node := by
      rw [checkNode, heq]
    have hauth (h : Authentic challenge cipher apps memoryNodes) :
        ∃ key ∈ memoryNodes.getD [], Verifies challenge cipher key := by
      obtain ⟨key, hkey, hver⟩ := h
      rcases List.mem_append.mp hkey with hmem | hmem
      · obtain ⟨e, he, rfl⟩ := List.mem_map.mp hmem
        exact absurd hver (hno e he)
      · exact ⟨key, hmem, hver⟩
    rw [hcheck]
    -- without a keyring of memory nodes nothing is checked and the node stays as it is
    cases memoryNodes with
    | none =>
        refine ⟨node, rfl, .inr ⟨fun h => ?_, .inr ⟨hnoApp, rfl, rfl⟩⟩⟩
        obtain ⟨key, hkey, -⟩ := hauth h
        simp at hkey
    | some keyring =>
        rcases rc4VerifyKeyring_spec 0 keyring hrest with
          ⟨j, key, hj, hne, hmem, hver⟩ | ⟨hj, hnone⟩
        · refine ⟨{ node with nodeType := .memoryNode }, ?_,
            .inl ⟨⟨key, List.mem_append_right _ hmem, hver⟩, by simp,
              .inr ⟨rfl, key, hmem, hver⟩, .inr (.inl (by simp))⟩⟩
          simp [checkMemoryNode, hj, hne]
        · refine ⟨{ node with nodeType := .unknown }, ?_, .inr ⟨fun h => ?_, .inl ⟨by simp, rfl⟩⟩⟩
          · simp [checkMemoryNode, hj]
          · obtain ⟨key, hkey, hver⟩ := hauth h
            exact hnone key hkey hver

lemma checkNode_of_empty (node : Node)
    (hempty : [] ∈ triedKeys challenge cipher (suppliedKeys apps memoryNodes)) :
    checkNode challenge cipher apps memoryNodes node = none := by
  rcases verifyApps_of_empty (apps.getD []) (memoryNodes.getD []) hempty with h | ⟨h, hrest⟩
  · rw [checkNode, h]
  · rw [checkNode, h]
    cases memoryNodes with
    | none => simp [triedKeys] at hrest
    | some keyring =>
        simp only [checkMemoryNode]
        rw [rc4VerifyKeyring_of_empty 0 keyring hrest]

end Checks

/-! ### Both sides -/

section Sides

/-- The message with the challenge. -/
def challengeMsg (challenge : Challenge) : Msg := ⟨MsgType.auth, challenge.bytes⟩

/-- The code of the server for a client of this type. -/
def verdict (node : Node) : UInt32 := if node.nodeType = .unknown then 1 else 0

variable {challenge : Challenge} {key cipher rest : List UInt8} {apps : Option AppsKeyring}
  {memoryNodes : Option MemoryNodesKeyring} {node node' : Node}

lemma wp_recvAuth {Q : Option (Except Status (List UInt8)) → List UInt8 → List UInt8 → Prop}
    (h : Q (some (.ok challenge.bytes)) rest []) :
    wp reliable recvAuth (frame (challengeMsg challenge) ++ rest) Q := by
  have hfits := challenge.fits
  apply wp_bind
  apply wp_recvMsg (fun h => h) (challengeMsg challenge) (by simp only [challengeMsg]; omega)
    (.inr rfl)
  · by_cases hnil : (challengeMsg challenge).data = []
    · have hbytes : challenge.bytes = [] := hnil
      simp only [if_pos hnil]
      rw [hbytes] at h
      exact h
    · simp only [if_neg hnil]
      apply wp_bind
      exact wp_new h fun hfail => hfail.elim
  · exact fun hfail => hfail.elim

/-- The client answers the challenge and waits for the verdict. -/
lemma wp_authClient {Q : Option Ret → List UInt8 → List UInt8 → Prop}
    (hcipher : rc4 challenge.bytes key = some cipher)
    (h : wp reliable recvVerdict rest fun r rest' out =>
      Q r rest' (frame (responseMsg 0 cipher []) ++ out)) :
    wp reliable (authClient key) (frame (challengeMsg challenge) ++ rest) Q := by
  have hfits := challenge.fits
  have hlen := length_of_rc4 hcipher
  apply wp_bind
  apply wp_recvAuth
  simp only [hcipher]
  apply wp_bind
  apply wp_sendResponse (fun h => h) (fun h => h) (by simp only [List.length_nil]; omega)
  exact h

lemma wp_recvVerdict {Q : Option Ret → List UInt8 → List UInt8 → Prop} {code : UInt32}
    (h : Q (some (.returns (if code ≠ 0 then .protocolError else .success))) rest []) :
    wp reliable recvVerdict (frame (responseMsg code [] []) ++ rest) Q := by
  apply wp_bind
  exact wp_recvResponse (fun h => h) (fun h => h) (by simp) h

/-- The server with the answer to read: it sends its verdict, or an empty key is tried. -/
lemma wp_authServer {Q : Option (Ret × Node) → List UInt8 → List UInt8 → Prop}
    (hlen : cipher.length < 2 ^ 32)
    (hsome : ∀ node', checkNode challenge.bytes cipher apps memoryNodes node = some node' →
      Q (some (.returns .success, node')) rest
        (frame (challengeMsg challenge) ++ frame (responseMsg (verdict node') [] [])))
    (hnone : checkNode challenge.bytes cipher apps memoryNodes node = none →
      Q (some (.undefined, node)) rest (frame (challengeMsg challenge))) :
    wp reliable (authServer challenge apps memoryNodes node)
      (frame (responseMsg 0 cipher []) ++ rest) Q := by
  have hfits := challenge.fits
  have hmsgLen : (UInt32.ofNat cipher.length).toNat = cipher.length := by
    rw [UInt32.toNat_ofNat', Nat.mod_eq_of_lt hlen]
  apply wp_bind
  apply wp_sendMsg (fun h => h) (challengeMsg challenge)
    (by simp only [challengeMsg, headerSize]; omega)
  apply wp_bind
  apply wp_recvResponse (fun h => h) (fun h => h) (by simp only [List.length_nil]; omega)
  simp only [List.append_nil, hmsgLen, lt_irrefl, if_false, List.take_length]
  cases hcheck : checkNode challenge.bytes cipher apps memoryNodes node with
  | none => simpa [wp] using hnone hcheck
  | some node' =>
      apply wp_bind
      apply wp_sendResponse (fun h => h) (fun h => h) (by simp)
      simpa [wp, verdict] using hsome node' hcheck

/-- The two sides before the first call. -/
abbrev authNet (challenge : Challenge) (key : List UInt8) (apps : Option AppsKeyring)
    (memoryNodes : Option MemoryNodesKeyring) (node : Node) : Net UInt8 Ret (Ret × Node) :=
  Net.start (authClient key) (authServer challenge apps memoryNodes node)

lemma emits_challenge :
    Emits reliable (authServer challenge apps memoryNodes node) []
      (frame (challengeMsg challenge)) := by
  have hfits := challenge.fits
  intro X
  apply wp_bind
  apply wp_sendMsg (fun h => h) (challengeMsg challenge)
    (by simp only [challengeMsg, headerSize]; omega)
  exact wp_mono (wp_true _ _ _) fun _ _ out _ => List.prefix_append _ _

lemma emits_cipher (hcipher : rc4 challenge.bytes key = some cipher) :
    Emits reliable (authClient key) (frame (challengeMsg challenge))
      (frame (responseMsg 0 cipher [])) := by
  intro X
  apply wp_authClient hcipher
  exact wp_mono (wp_true _ _ _) fun _ _ out _ => List.prefix_append _ _

/-- What the server does with the cipher of the client. -/
lemma authServer_ends (hcipher : rc4 challenge.bytes key = some cipher)
    (hcheck : checkNode challenge.bytes cipher apps memoryNodes node = some node') :
    Ends reliable (authServer challenge apps memoryNodes node) (frame (responseMsg 0 cipher []))
      (some (.returns .success, node'))
      (frame (challengeMsg challenge) ++ frame (responseMsg (verdict node') [] [])) := by
  have hlen : cipher.length < 2 ^ 32 := by
    rw [length_of_rc4 hcipher]
    exact challenge.fits
  rw [← List.append_nil (frame (responseMsg 0 cipher []))]
  apply wp_authServer hlen
  · intro node'' hcheck'
    obtain rfl : node' = node'' := Option.some.inj (hcheck.symm.trans hcheck')
    exact ⟨rfl, rfl, rfl⟩
  · intro hno
    rw [hcheck] at hno
    cases hno

/-- **What both sides come to** when every key that is tried has a result. -/
lemma auth_ends (hcipher : rc4 challenge.bytes key = some cipher)
    (hcheck : checkNode challenge.bytes cipher apps memoryNodes node = some node')
    {sides : List Side} {n : Net UInt8 Ret (Ret × Node)}
    (hrun : Runs (Net.Step reliable) (authNet challenge key apps memoryNodes node) sides n) :
    Net.Outcome reliable
      (some (.returns (if verdict node' ≠ 0 then .protocolError else .success)))
      (some (.returns .success, node')) n := by
  have hserver := authServer_ends hcipher hcheck
  refine Net.ends (U := frame (responseMsg 0 cipher []))
    (D := frame (challengeMsg challenge) ++ frame (responseMsg (verdict node') [] []))
    ?_ hserver ?_ hrun
  · apply wp_authClient hcipher
    rw [← List.append_nil (frame (responseMsg (verdict node') [] []))]
    apply wp_recvVerdict
    exact ⟨rfl, rfl, List.append_nil _⟩
  · refine .server (.client (.server .nil emits_challenge) (emits_cipher hcipher)) ?_
    intro X
    have hlen : cipher.length < 2 ^ 32 := by
      rw [length_of_rc4 hcipher]
      exact challenge.fits
    apply wp_authServer hlen
    · intro node'' hcheck'
      obtain rfl : node' = node'' := Option.some.inj (hcheck.symm.trans hcheck')
      exact List.prefix_refl _
    · intro hno
      rw [hcheck] at hno
      cases hno

/-- Client and server agree with the keyrings: the server has a verdict on the cipher, in
every run the client is told it, the verdict is favourable if and only if the cipher
comes from a key of the keyrings, and `nodeType` says what was found. -/
structure Agreed (challenge : Challenge) (key : List UInt8) (apps : Option AppsKeyring)
    (memoryNodes : Option MemoryNodesKeyring) (node : Node) (cipher : List UInt8) (code : UInt32)
    (status : Status) (node' : Node) : Prop where
  cipher_eq : rc4 challenge.bytes key = some cipher
  sends : Ends reliable (authServer challenge apps memoryNodes node)
    (frame (responseMsg 0 cipher [])) (some (.returns .success, node'))
    (frame (challengeMsg challenge) ++ frame (responseMsg code [] []))
  runs : ∀ sides n,
    Runs (Net.Step reliable) (authNet challenge key apps memoryNodes node) sides n →
      Net.Outcome reliable (some (.returns status)) (some (.returns .success, node')) n
  code_iff : code = 0 ↔ Authentic challenge.bytes cipher apps memoryNodes
  status_iff : status = .success ↔ Authentic challenge.bytes cipher apps memoryNodes
  identifies : Authentic challenge.bytes cipher apps memoryNodes →
    Identifies challenge.bytes cipher apps memoryNodes node'
  unknown : ¬ Authentic challenge.bytes cipher apps memoryNodes → node'.nodeType = .unknown

/-- Client and server agree. -/
def AuthAgrees (challenge : Challenge) (key : List UInt8) (apps : Option AppsKeyring)
    (memoryNodes : Option MemoryNodesKeyring) (node : Node) : Prop :=
  ∃ cipher code status node',
    Agreed challenge key apps memoryNodes node cipher code status node'

/-- No empty key is used, and the client is checked. -/
def KeysChecked (challenge : Challenge) (key : List UInt8) (apps : Option AppsKeyring)
    (memoryNodes : Option MemoryNodesKeyring) (node : Node) : Prop :=
  ∃ cipher, rc4 challenge.bytes key = some cipher ∧
    [] ∉ triedKeys challenge.bytes cipher (suppliedKeys apps memoryNodes) ∧
    Checked challenge.bytes cipher apps memoryNodes node

lemma authAgrees_of_keysChecked (h : KeysChecked challenge key apps memoryNodes node) :
    AuthAgrees challenge key apps memoryNodes node := by
  obtain ⟨cipher, hcipher, hempty, hchecked⟩ := h
  obtain ⟨node', hcheck, hfound⟩ := checkNode_spec node hempty
  have hunknown : node'.nodeType = .unknown ↔
      ¬ Authentic challenge.bytes cipher apps memoryNodes := by
    rcases hfound with ⟨hauth, hne, -, -⟩ | ⟨hauth, ⟨-, heq⟩ | ⟨hno, hnone, rfl⟩⟩
    · exact iff_of_false hne fun h => h hauth
    · exact iff_of_true heq hauth
    · -- nothing was checked, so `nodeType` was `Unknown` before
      rcases hchecked with happ | hmem | heq
      · exact absurd happ hno
      · exact absurd hnone hmem
      · exact iff_of_true heq hauth
  have hverdict : verdict node' = 0 ↔ Authentic challenge.bytes cipher apps memoryNodes := by
    rw [verdict]
    split_ifs with heq
    · exact iff_of_false (by decide) (hunknown.mp heq)
    · exact iff_of_true rfl (not_not.mp fun h => heq (hunknown.mpr h))
  refine ⟨cipher, verdict node', _, node', hcipher, authServer_ends hcipher hcheck,
    fun sides n hrun => auth_ends hcipher hcheck hrun, hverdict, ?_, ?_, hunknown.mpr⟩
  · rw [← hverdict]
    split_ifs with hcode
    · exact iff_of_false (by decide) hcode
    · exact iff_of_true rfl (not_not.mp hcode)
  · intro hauth
    rcases hfound with ⟨-, -, hid, -⟩ | ⟨hno, -⟩
    · exact hid
    · exact absurd hauth hno

lemma keysChecked_of_authAgrees (h : AuthAgrees challenge key apps memoryNodes node) :
    KeysChecked challenge key apps memoryNodes node := by
  obtain ⟨cipher, code, status, node₁, hagreed⟩ := h
  have hcipher := hagreed.cipher_eq
  have hempty : [] ∉ triedKeys challenge.bytes cipher (suppliedKeys apps memoryNodes) := by
    intro hmem
    have hcheck := checkNode_of_empty node hmem
    have hundefined : Ends reliable (authServer challenge apps memoryNodes node)
        (frame (responseMsg 0 cipher [])) (some (.undefined, node))
        (frame (challengeMsg challenge)) := by
      have hlen : cipher.length < 2 ^ 32 := by
        rw [length_of_rc4 hcipher]
        exact challenge.fits
      rw [← List.append_nil (frame (responseMsg 0 cipher []))]
      apply wp_authServer hlen
      · intro node' hsome
        rw [hcheck] at hsome
        cases hsome
      · exact fun _ => ⟨rfl, rfl, rfl⟩
    have heq := (hundefined.unique hagreed.sends).1
    simp at heq
  refine ⟨cipher, hcipher, hempty, ?_⟩
  obtain ⟨node', hcheck, hfound⟩ := checkNode_spec node hempty
  obtain rfl : node' = node₁ := by
    have heq := ((authServer_ends hcipher hcheck).unique hagreed.sends).1
    simpa using heq
  rcases hfound with ⟨-, -, -, hchecked⟩ | ⟨-, ⟨hmem, -⟩ | ⟨-, -, rfl⟩⟩
  · exact hchecked
  · exact .inr (.inl hmem)
  · by_cases hauth : Authentic challenge.bytes cipher apps memoryNodes
    · obtain ⟨hnode, key', hmem, hver⟩ | ⟨hnode, key', hmem, hver⟩ := hagreed.identifies hauth
      · exact .inl ⟨_, hmem, hver⟩
      · refine .inr (.inl ?_)
        rintro rfl
        simp at hmem
    · exact .inr (.inr (hagreed.unknown hauth))

end Sides

/-- **Authentication.** Client and server agree with the keyrings, in every run, if and
only if the key of the client is not empty, no empty key is tried, and an application
matches, or there is a keyring of memory nodes, or `nodeType` was `Unknown` before. -/
theorem auth_agrees_iff (challenge : Challenge) (key : List UInt8) (apps : Option AppsKeyring)
    (memoryNodes : Option MemoryNodesKeyring) (node : Node) :
    AuthAgrees challenge key apps memoryNodes node ↔
      KeysChecked challenge key apps memoryNodes node :=
  ⟨keysChecked_of_authAgrees, authAgrees_of_keysChecked⟩

/-- Without keyrings every client with a key is told that it is accepted, in every run,
and `nodeType` is not `Unknown`. -/
theorem auth_admits_anyone :
    (∀ sides n, Runs (Net.Step reliable) (authNet sourceChallenge [1] none none Node.initial)
        sides n →
      Net.Outcome reliable (some (.returns .success)) (some (.returns .success, Node.initial)) n) ∧
    (∃ sides n, Runs (Net.Step reliable) (authNet sourceChallenge [1] none none Node.initial)
        sides n ∧ n.client = .done (.returns .success)) ∧
    (∀ cipher, ¬ Authentic sourceChallenge.bytes cipher none none) ∧
    ¬ AuthAgrees sourceChallenge [1] none none Node.initial := by
  obtain ⟨cipher, hcipher⟩ : ∃ cipher, rc4 sourceChallenge.bytes [1] = some cipher :=
    Option.isSome_iff_exists.mp (rc4_isSome_iff.mpr (by simp))
  have hcheck : checkNode sourceChallenge.bytes cipher none none Node.initial =
      some Node.initial := rfl
  have hrun {sides n} (h : Runs (Net.Step reliable)
      (authNet sourceChallenge [1] none none Node.initial) sides n) :
      Net.Outcome reliable (some (.returns .success))
        (some (.returns .success, Node.initial)) n :=
    auth_ends hcipher hcheck h
  refine ⟨fun sides n => hrun, ?_, ?_, fun h => ?_⟩
  · obtain ⟨sides, n, hruns, hstuck⟩ :=
      Net.exists_stuck reliable (authNet sourceChallenge [1] none none Node.initial)
    exact ⟨sides, n, hruns, (hrun hruns).client_ends hstuck _ rfl⟩
  · rintro cipher ⟨key, hkey, -⟩
    simp [suppliedKeys] at hkey
  · obtain ⟨cipher', -, -, ⟨e, he, -⟩ | hmem | hnode⟩ := keysChecked_of_authAgrees h
    · simp at he
    · exact hmem rfl
    · cases hnode

end Monkey
