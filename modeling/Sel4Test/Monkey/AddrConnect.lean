import Sel4Test.Monkey.Connect
import Sel4Test.Monkey.IP4Addr

/-!
Where a connect goes, `mnemosyne_sess_connect_by_addrstr_devid` of `mnemosyne_api.cc`.

The address is parsed in two steps. `parseIpPort` cuts the string at its first colon and reads
the port; the text before the colon is handed to `IP4Addr::set`, whose status is not looked at.
Then the port is stored and the bridge connects to whatever the client's address is by now.

Here the client has the octets of its address, and all that the call hands to the bridge is
logged. What the other side and the bridge answer is part of the call. An address string is
the bytes before its NUL; the null pointer is the empty string.

* `parseIpPort_eq_some_iff`: the strings that `parseIpPort` accepts.
* `connectTo_create`: a connect asks for a session with the client's address only.
* `connectByAddr_iff`: the strings for which the call keeps its promise in every state.
-/

namespace Monkey

open Adl Adl.TString

namespace AddrConnect

/-! ### State -/

/-- What a call hands to the bridge. -/
inductive Sent
  | close
  | create (ip : IP4Addr) (port devId : UInt16)
  | data
  deriving DecidableEq

/-- A session, its client, and the state of the bridge. -/
structure ClientSession where
  session : Session
  ip : IP4Addr
  port : UInt16
  socketFd : ℤ
  initialized : Bool
  sessionActive : Bool

/-- What the steps of a connect come to: whether `bridge.init()` succeeds, whether the command
is queued and a session established, the statuses of `hello` and `auth`, and the result of
`tryAlloc` or `refBlock`. -/
structure Replies where
  init : Bool
  queued : Bool
  established : Bool
  hello : Status
  auth : Status
  block : Except Status Int64

/-- A state and what was handed to the bridge before. -/
abbrev Wire := ClientSession × List Sent

/-- `HyperAmpBridge::close`. -/
def closeBridge (w : Wire) : Wire :=
  if w.1.initialized = false ∨ w.1.sessionActive = false then w
  else ({ w.1 with sessionActive := false }, w.2 ++ [.close])

/-- `client.close()`. -/
def closeClient (w : Wire) : Wire :=
  let w := closeBridge w
  ({ w.1 with socketFd := -1 }, w.2)

/-- `HyperAmpBridge::connect` to the client's address. -/
def bridgeConnect (devId : UInt16) (replies : Replies) (w : Wire) : Bool × Wire :=
  if w.1.initialized = false then (false, w)
  else
    let w := if w.1.sessionActive then closeBridge w else w
    if replies.queued = false then (false, w)
    else (replies.established, { w.1 with sessionActive := replies.established },
      w.2 ++ [.create w.1.ip w.1.port devId])

/-- `MNEMOSYNE_DEV_AUTO`. -/
def devAuto : UInt16 := 0xFF

/-- The two ways to the bridge: through `Socket4::connect`, which initializes it, or past it. -/
def connectBridge (devId : UInt16) (replies : Replies) (w : Wire) : Bool × Wire :=
  let w := closeClient w
  let w := if devId = devAuto then
      ({ w.1 with initialized := w.1.initialized || replies.init }, w.2) else w
  let r := bridgeConnect devId replies w
  if r.1 then (true, { r.2.1 with socketFd := 9999 }, r.2.2) else (false, r.2)

/-- Data goes through the session. -/
def talk (w : Wire) : Wire := (w.1, w.2 ++ [.data])

/-- `sess->connected = b`. -/
def setConnected (b : Bool) (w : Wire) : Wire :=
  ({ w.1 with session := { w.1.session with connected := b } }, w.2)

/-- `sess->blockId = bid` and `sess->hasBlock = true`. -/
def setBlock (bid : Int64) (w : Wire) : Wire :=
  ({ w.1 with session := { w.1.session with blockId := bid, hasBlock := true } }, w.2)

/-- The steps after the session of the bridge. -/
def handshake (role : Role) (replies : Replies) (w : Wire) : ℤ × Wire :=
  let w := talk w
  if replies.hello ≠ .success then (-5, closeClient w)
  else
    let w := talk w
    if replies.auth ≠ .success then (-6, closeClient w)
    else
      let w := talk (setConnected true w)
      match replies.block with
      | .error _ => (if role = .alloc then -7 else -8, setConnected false (closeClient w))
      | .ok bid => (0, setBlock bid w)

/-- The call once the address of the client is set. -/
def connectTo (role : Role) (devId : UInt16) (replies : Replies) (s : ClientSession) : ℤ × Wire :=
  let r := connectBridge devId replies (s, [])
  if r.1 then handshake role replies r.2 else (-4, r.2)

/-- `mnemosyne_sess_connect_by_addrstr_devid`; no result where `IP4Addr::set` has none. -/
def connectByAddr (role : Role) (s : ClientSession) (args : ConnectArgs) (replies : Replies) :
    Option (ℤ × Wire) :=
  if s.session.client = false then some (-1, s, [])
  else if args.proto ≠ protoTcp then some (-2, s, [])
  else if args.addrStr = [] then some (connectTo role args.devId replies s)
  else
    (parseIpPort args.addrStr).elim (some (-3, s, [])) fun e =>
      (IP4Addr.set s.ip e.1).map fun r =>
        connectTo role args.devId replies { s with ip := r.2, port := e.2 }

/-! ### Address strings -/

/-- `:` -/
def colon : UInt8 := 0x3A

/-- The string denotes an address and a port. -/
def Endpoint (str : TString) (ip : IP4Addr) (port : UInt16) : Prop :=
  ∃ text digits, str = text ++ colon :: digits ∧ IP4Addr.Denotes text ip ∧
    IsDecimal digits port.toNat ∧ port ≠ 0

/-- The text before the first colon. -/
def hostText (str : TString) : TString := str.takeWhile (· ≠ colon)

/-- The string has from 1 to 63 bytes before its first colon, and a port after it. -/
def HostPort (str : TString) (port : UInt16) : Prop :=
  ∃ digits, str = hostText str ++ colon :: digits ∧ hostText str ≠ [] ∧
    (hostText str).length < 64 ∧ IsDecimal digits port.toNat ∧ port ≠ 0

/-! ### Parsing -/

lemma parsePort_digits {v : ℕ} {s : TString} (hs : Digits s) (hmax : digitsValue v s ≤ 0xFFFF) :
    parsePort v s = some (digitsValue v s) := by
  induction s generalizing v with
  | nil => rfl
  | cons c s ih =>
      obtain ⟨⟨hlow, hhigh⟩, hs⟩ := hs.of_cons
      have hdigit : ¬ (c < 0x30 ∨ 0x39 < c) := by
        rw [UInt8.lt_iff_toNat_lt, UInt8.lt_iff_toNat_lt]
        simp only [UInt8.reduceToNat]
        omega
      have hle : ¬ 0xFFFF < v * 10 + (c.toNat - 0x30) :=
        not_lt.mpr (le_trans (le_digitsValue _ s) hmax)
      rw [parsePort, if_neg hdigit]
      dsimp only
      rw [if_neg hle, ih hs hmax]
      rfl

lemma digits_of_parsePort {v p : ℕ} {s : TString} (h : parsePort v s = some p) (hv : v ≤ 0xFFFF) :
    Digits s ∧ digitsValue v s = p ∧ p ≤ 0xFFFF := by
  induction s generalizing v with
  | nil =>
      obtain rfl : v = p := by simpa [parsePort] using h
      exact ⟨fun c hc => absurd hc (by simp), rfl, hv⟩
  | cons c s ih =>
      rw [parsePort] at h
      dsimp only at h
      split_ifs at h with hdigit hmax
      obtain ⟨hs, hvalue, hp⟩ := ih h (by omega)
      refine ⟨fun b hb => ?_, hvalue, hp⟩
      rcases List.mem_cons.mp hb with rfl | hb
      · rw [UInt8.lt_iff_toNat_lt, UInt8.lt_iff_toNat_lt] at hdigit
        simp only [UInt8.reduceToNat] at hdigit
        omega
      · exact hs b hb

/-- A string is the text before its first colon, and nothing or a colon and the rest. -/
lemma hostText_cases (str : TString) : str = hostText str ∨
    ∃ digits, str = hostText str ++ colon :: digits := by
  induction str with
  | nil => exact .inl rfl
  | cons c str ih =>
      by_cases hc : c = colon
      · subst hc
        exact .inr ⟨str, rfl⟩
      · have hhost : hostText (c :: str) = c :: hostText str :=
          List.takeWhile_cons_of_pos (by simpa using hc)
        rcases ih with h | ⟨digits, h⟩
        · refine .inl ?_
          rw [hhost, ← h]
        · refine .inr ⟨digits, ?_⟩
          rw [hhost, List.cons_append, ← h]

lemma drop_hostText {str : TString} (rest : TString) (h : str = hostText str ++ rest) :
    str.drop (hostText str).length = rest := by
  have hdrop : (hostText str ++ rest).drop (hostText str).length = rest := List.drop_left' rfl
  rw [← h] at hdrop
  exact hdrop

/-- **The strings that `parseIpPort` accepts.** -/
lemma parseIpPort_eq_some_iff {str text : TString} {port : UInt16} :
    parseIpPort str = some (text, port) ↔ text = hostText str ∧ HostPort str port := by
  have hip : str.takeWhile (· ≠ 0x3A) = hostText str := rfl
  -- without a colon there is no port; with one, the text behind the first is the port
  rcases hostText_cases str with hall | ⟨digits, hstr⟩
  · have hdrop := drop_hostText [] (by rw [List.append_nil]; exact hall)
    refine iff_of_false ?_ ?_
    · simp only [parseIpPort, hip, hdrop]
      exact fun h => by cases h
    · rintro ⟨-, digits, hcolon, -⟩
      have hlen := congrArg List.length hcolon
      rw [List.length_append, List.length_cons, ← hall] at hlen
      omega
  · have hdrop := drop_hostText _ hstr
    have hport : HostPort str port ↔ hostText str ≠ [] ∧ (hostText str).length < 64 ∧
        IsDecimal digits port.toNat ∧ port ≠ 0 := by
      constructor
      · rintro ⟨digits', hstr', h⟩
        have heq : colon :: digits = colon :: digits' :=
          List.append_cancel_left (hstr.symm.trans hstr')
        obtain rfl := (List.cons.inj heq).2
        exact h
      · exact fun h => ⟨digits, hstr, h⟩
    rw [hport]
    simp only [parseIpPort, hip, hdrop]
    constructor
    · intro h
      split_ifs at h with hhost
      push Not at hhost
      cases hp : parsePort 0 digits with
      | none =>
          rw [hp] at h
          cases h
      | some p =>
          rw [hp] at h
          dsimp only at h
          split_ifs at h with hzero
          obtain ⟨rfl, rfl⟩ := Prod.mk.inj (Option.some.inj h)
          obtain ⟨hdigits, hvalue, hmax⟩ := digits_of_parsePort hp (by omega)
          have hnat : (UInt16.ofNat p).toNat = p := by
            rw [UInt16.toNat_ofNat']
            omega
          refine ⟨rfl, hhost.1, hhost.2, ⟨?_, hdigits, by rw [hvalue, hnat]⟩, fun hport => ?_⟩
          · rintro rfl
            exact hzero hvalue.symm
          · rw [hport] at hnat
            exact hzero hnat.symm
    · rintro ⟨rfl, hne, hlen, hdecimal, hport⟩
      have hpos : port.toNat ≠ 0 := fun h => hport (UInt16.toNat_inj.mp h)
      have hparse : parsePort 0 digits = some port.toNat := by
        have h := parsePort_digits (v := 0) hdecimal.digits (by
          rw [hdecimal.value]
          have := port.toNat_lt
          omega)
        rwa [hdecimal.value] at h
      rw [if_neg (by push Not; exact ⟨hne, hlen⟩), hparse]
      dsimp only
      rw [if_neg hpos, UInt16.ofNat_toNat]

lemma hostText_append {text : TString} (h : ∀ c ∈ text, c ≠ colon) (digits : TString) :
    hostText (text ++ colon :: digits) = text := by
  induction text with
  | nil => rfl
  | cons c text ih =>
      have hc : c ≠ colon := h c List.mem_cons_self
      have hstep : hostText (c :: (text ++ colon :: digits)) =
          c :: hostText (text ++ colon :: digits) :=
        List.takeWhile_cons_of_pos (by simpa using hc)
      rw [List.cons_append, hstep, ih fun b hb => h b (List.mem_cons_of_mem _ hb)]

/-- What a string denotes is decided by its two parts. -/
lemma endpoint_iff {str : TString} {ip : IP4Addr} {port : UInt16} :
    Endpoint str ip port ↔ IP4Addr.Denotes (hostText str) ip ∧
      ∃ digits, str = hostText str ++ colon :: digits ∧ IsDecimal digits port.toNat ∧ port ≠ 0 := by
  constructor
  · rintro ⟨text, digits, rfl, hdenotes, hdecimal, hport⟩
    have hcolon : ∀ c ∈ text, c ≠ colon := by
      rintro c hc rfl
      have hbyte := hdenotes.bytes colon hc
      revert hbyte
      decide
    rw [hostText_append hcolon]
    exact ⟨hdenotes, digits, rfl, hdecimal, hport⟩
  · rintro ⟨hdenotes, digits, hstr, hdecimal, hport⟩
    exact ⟨hostText str, digits, hstr, hdenotes, hdecimal, hport⟩

/-! ### What a connect asks for -/

/-- The client has this address, and no session was asked for with another one. -/
structure Toward (ip : IP4Addr) (port : UInt16) (w : Wire) : Prop where
  sameIp : w.1.ip = ip
  samePort : w.1.port = port
  create : ∀ ip' port' devId, Sent.create ip' port' devId ∈ w.2 → ip' = ip ∧ port' = port

section Toward

variable {ip : IP4Addr} {port devId : UInt16} {w : Wire} {replies : Replies} {role : Role}

/-- Events other than a create may be logged. -/
lemma Toward.log (h : Toward ip port w) {e : Sent} (he : ∀ i p d, e ≠ .create i p d)
    {s : ClientSession} (hip : s.ip = w.1.ip) (hport : s.port = w.1.port) :
    Toward ip port (s, w.2 ++ [e]) := by
  refine ⟨hip.trans h.sameIp, hport.trans h.samePort, fun i p d hmem => ?_⟩
  rcases List.mem_append.mp hmem with hmem | hmem
  · exact h.create i p d hmem
  · exact absurd (List.mem_singleton.mp hmem).symm (he i p d)

lemma Toward.closeBridge (h : Toward ip port w) : Toward ip port (closeBridge w) := by
  rw [AddrConnect.closeBridge]
  split_ifs
  · exact h
  · exact h.log (fun _ _ _ h => by cases h) rfl rfl

lemma Toward.closeClient (h : Toward ip port w) : Toward ip port (closeClient w) :=
  ⟨h.closeBridge.sameIp, h.closeBridge.samePort, h.closeBridge.create⟩

lemma Toward.talk (h : Toward ip port w) : Toward ip port (talk w) :=
  h.log (fun _ _ _ h => by cases h) rfl rfl

lemma Toward.setConnected (h : Toward ip port w) (b : Bool) : Toward ip port (setConnected b w) :=
  ⟨h.sameIp, h.samePort, h.create⟩

lemma Toward.setBlock (h : Toward ip port w) (bid : Int64) : Toward ip port (setBlock bid w) :=
  ⟨h.sameIp, h.samePort, h.create⟩

/-- The bridge is asked for a session with the client's address. -/
lemma Toward.bridgeConnect (h : Toward ip port w) :
    Toward ip port (bridgeConnect devId replies w).2 := by
  rw [AddrConnect.bridgeConnect]
  by_cases hinit : w.1.initialized = false
  · rw [if_pos hinit]
    exact h
  · obtain ⟨v, hv⟩ : ∃ v, v = if w.1.sessionActive then AddrConnect.closeBridge w else w := ⟨_, rfl⟩
    have hclosed : Toward ip port v := by
      rw [hv]
      split_ifs
      · exact h.closeBridge
      · exact h
    rw [if_neg hinit]
    dsimp only
    rw [← hv]
    by_cases hqueued : replies.queued = false
    · rw [if_pos hqueued]
      exact hclosed
    · rw [if_neg hqueued]
      refine ⟨hclosed.sameIp, hclosed.samePort, fun i p d hmem => ?_⟩
      rcases List.mem_append.mp hmem with hmem | hmem
      · exact hclosed.create i p d hmem
      · obtain ⟨rfl, rfl, -⟩ := Sent.create.inj (List.mem_singleton.mp hmem)
        exact ⟨hclosed.sameIp, hclosed.samePort⟩

lemma Toward.connectBridge (h : Toward ip port w) :
    Toward ip port (connectBridge devId replies w).2 := by
  obtain ⟨v, hv⟩ : ∃ v, v = if devId = devAuto then
      ({ (AddrConnect.closeClient w).1 with
          initialized := (AddrConnect.closeClient w).1.initialized || replies.init },
        (AddrConnect.closeClient w).2)
      else AddrConnect.closeClient w := ⟨_, rfl⟩
  have hready : Toward ip port v := by
    have hclosed := h.closeClient
    rw [hv]
    split_ifs
    · exact ⟨hclosed.sameIp, hclosed.samePort, hclosed.create⟩
    · exact hclosed
  have hasked : Toward ip port (AddrConnect.bridgeConnect devId replies v).2 :=
    hready.bridgeConnect
  rw [AddrConnect.connectBridge]
  dsimp only
  rw [← hv]
  cases (AddrConnect.bridgeConnect devId replies v).1 with
  | true => exact ⟨hasked.sameIp, hasked.samePort, hasked.create⟩
  | false => exact hasked

lemma Toward.handshake (h : Toward ip port w) : Toward ip port (handshake role replies w).2 := by
  rw [AddrConnect.handshake]
  dsimp only
  by_cases hhello : replies.hello ≠ .success
  · rw [if_pos hhello]
    exact h.talk.closeClient
  · rw [if_neg hhello]
    by_cases hauth : replies.auth ≠ .success
    · rw [if_pos hauth]
      exact h.talk.talk.closeClient
    · rw [if_neg hauth]
      cases replies.block with
      | error _ => exact ((h.talk.talk.setConnected true).talk.closeClient).setConnected false
      | ok bid => exact (h.talk.talk.setConnected true).talk.setBlock bid

/-- **A connect asks for a session with the client's address only**, and keeps the address. -/
lemma connectTo_toward (role : Role) (devId : UInt16) (replies : Replies) (s : ClientSession) :
    Toward s.ip s.port (connectTo role devId replies s).2 := by
  have hstart : Toward s.ip s.port (s, []) := ⟨rfl, rfl, fun _ _ _ h => absurd h (by simp)⟩
  rw [connectTo]
  split_ifs
  · exact hstart.connectBridge.handshake
  · exact hstart.connectBridge

end Toward

/-! ### Which strings are handled -/

/-- What the call promises for an address string: it returns, it asks only for sessions with
what the string denotes, and if the string denotes nothing it fails, hands nothing to the
bridge and leaves the state as it was. -/
structure Promise (role : Role) (s : ClientSession) (args : ConnectArgs) (replies : Replies) :
    Prop where
  ends : (connectByAddr role s args replies).isSome = true
  create : ∀ code s' log, connectByAddr role s args replies = some (code, s', log) →
    ∀ ip port devId, Sent.create ip port devId ∈ log → Endpoint args.addrStr ip port
  refused : ∀ code s' log, connectByAddr role s args replies = some (code, s', log) →
    (∀ ip port, ¬ Endpoint args.addrStr ip port) → code < 0 ∧ log = [] ∧ s' = s

/-- A call that returns early keeps the promise. -/
lemma promise_of_early {role : Role} {s : ClientSession} {args : ConnectArgs} {replies : Replies}
    (code : ℤ) (hcode : code < 0) (h : connectByAddr role s args replies = some (code, s, [])) :
    Promise role s args replies := by
  refine ⟨by rw [h]; rfl, fun code' s' log h' ip port devId hmem => ?_,
    fun code' s' log h' _ => ?_⟩
  · rw [h] at h'
    obtain ⟨-, -, rfl⟩ := by simpa using h'
    exact absurd hmem (by simp)
  · rw [h] at h'
    obtain ⟨rfl, rfl, rfl⟩ := by simpa using h'
    exact ⟨hcode, rfl, rfl⟩

/-- A session that is not connected, with a port other than `port`. -/
def otherPort (port : UInt16) : ClientSession where
  session := newSession.session
  ip := #v[0, 0, 0, 0]
  port := port + 1
  socketFd := -1
  initialized := true
  sessionActive := false

/-- Where the port is read and the text is not a dotted quad, the port of the session is
overwritten, or the address has no meaning. -/
lemma not_promise {role : Role} {args : ConnectArgs} {port : UInt16} (replies : Replies)
    (hproto : args.proto = protoTcp) (hport : HostPort args.addrStr port)
    (hquad : ¬ IP4Addr.DottedQuad (hostText args.addrStr)) :
    ¬ Promise role (otherPort port) args replies := by
  intro hpromise
  have hstr : args.addrStr ≠ [] := by
    obtain ⟨digits, hsplit, -⟩ := hport
    rw [hsplit]
    simp
  have hcall : connectByAddr role (otherPort port) args replies =
      ((otherPort port).ip.set (hostText args.addrStr)).map fun r =>
        connectTo role args.devId replies { otherPort port with ip := r.2, port := port } := by
    rw [connectByAddr, if_neg (by simp [otherPort, newSession]), if_neg (not_not.mpr hproto),
      if_neg hstr, parseIpPort_eq_some_iff.mpr ⟨rfl, hport⟩]
    rfl
  obtain ⟨⟨code, s', log⟩, hret⟩ := Option.isSome_iff_exists.mp hpromise.ends
  obtain ⟨-, -, hsame⟩ := hpromise.refused code s' log hret fun ip port hend =>
    hquad ⟨ip, (endpoint_iff.mp hend).1⟩
  rw [hcall] at hret
  obtain ⟨r, -, hr⟩ := Option.map_eq_some_iff.mp hret
  have htoward := (connectTo_toward role args.devId replies
    { otherPort port with ip := r.2, port := port }).samePort
  rw [hr] at htoward
  have hmoved : port + 1 = port := by
    rw [hsame] at htoward
    exact htoward
  exact absurd hmoved (by simp)

/-- Every step succeeds. -/
def allReplies : Replies := ⟨true, true, true, .success, .success, .ok 0⟩

/-- **The strings that are handled right.** With a protocol that is accepted, the call keeps
its promise in every state and whatever the answers are exactly for the strings whose text and
port are refused, and for those whose text is a dotted quad. -/
theorem connectByAddr_iff (role : Role) (args : ConnectArgs) (hstr : args.addrStr ≠ []) :
    (∀ s replies, Promise role s args replies) ↔
      args.proto ≠ protoTcp ∨ (∀ port, ¬ HostPort args.addrStr port) ∨
        IP4Addr.DottedQuad (hostText args.addrStr) := by
  constructor
  · intro h
    by_contra hno
    push Not at hno
    obtain ⟨hproto, ⟨port, hport⟩, hquad⟩ := hno
    exact not_promise allReplies hproto hport hquad (h (otherPort port) allReplies)
  · intro h s replies
    by_cases hclient : s.session.client = false
    · exact promise_of_early (-1) (by norm_num) (if_pos hclient)
    by_cases hproto : args.proto = protoTcp
    · cases hparse : parseIpPort args.addrStr with
      | none =>
          refine promise_of_early (-3) (by norm_num) ?_
          rw [connectByAddr, if_neg hclient, if_neg (not_not.mpr hproto), if_neg hstr, hparse]
          rfl
      | some e =>
          obtain ⟨text, port⟩ := e
          obtain ⟨rfl, hport⟩ := parseIpPort_eq_some_iff.mp hparse
          obtain ⟨ip, hdenotes⟩ := (h.resolve_left (not_not.mpr hproto)).resolve_left
            fun hnone => hnone port hport
          have hcall : connectByAddr role s args replies =
              some (connectTo role args.devId replies { s with ip := ip, port := port }) := by
            rw [connectByAddr, if_neg hclient, if_neg (not_not.mpr hproto), if_neg hstr, hparse]
            show ((s.ip.set (hostText args.addrStr)).map _) = _
            rw [IP4Addr.set_of_denotes hdenotes]
            rfl
          have hend : Endpoint args.addrStr ip port := by
            obtain ⟨digits, hsplit, -, -, hdecimal, hzero⟩ := hport
            exact endpoint_iff.mpr ⟨hdenotes, digits, hsplit, hdecimal, hzero⟩
          refine ⟨by rw [hcall]; rfl, fun code s' log hret ip' port' devId hmem => ?_,
            fun _ _ _ _ hnone => absurd hend (hnone ip port)⟩
          have htoward := (connectTo_toward role args.devId replies
            { s with ip := ip, port := port }).create ip' port' devId
          rw [hcall] at hret
          rw [Option.some.inj hret] at htoward
          obtain ⟨rfl, rfl⟩ := htoward hmem
          exact hend
    · refine promise_of_early (-2) (by norm_num) ?_
      rw [connectByAddr, if_neg hclient, if_pos hproto]

/-- The string `10.0.0.1:80`. -/
def quadAddr : TString := IP4Addr.toString #v[10, 0, 0, 1] ++ colon :: [0x38, 0x30]

/-- A dotted quad is handled right. -/
theorem connectByAddr_quad :
    Promise .alloc (otherPort 80) ⟨protoTcp, quadAddr, devAuto⟩ allReplies := by
  have hhost : hostText quadAddr = IP4Addr.toString #v[10, 0, 0, 1] :=
    hostText_append (by decide +kernel) _
  refine (connectByAddr_iff .alloc ⟨protoTcp, quadAddr, devAuto⟩ (by decide)).mpr
    (.inr (.inr ⟨#v[10, 0, 0, 1], ?_⟩)) (otherPort 80) allReplies
  rw [hhost]
  exact IP4Addr.denotes_toString _

/-- The string `192.16aaa.1.1:80`. -/
def lettersAddr : TString := IP4Addr.lettersString ++ colon :: [0x38, 0x30]

/-- A string with letters is not. -/
theorem connectByAddr_letters :
    ¬ Promise .alloc (otherPort 80) ⟨protoTcp, lettersAddr, devAuto⟩ allReplies := by
  have hhost : hostText lettersAddr = IP4Addr.lettersString := hostText_append (by decide +kernel) _
  have hparse : parseIpPort lettersAddr = some (IP4Addr.lettersString, 80) := by decide
  refine not_promise allReplies rfl (parseIpPort_eq_some_iff.mp hparse).2 ?_
  rintro ⟨ip, h⟩
  have hdenotes : IP4Addr.Denotes (hostText lettersAddr) ip := h
  rw [hhost] at hdenotes
  have hletter := hdenotes.bytes 0x61 (by decide)
  revert hletter
  decide

end AddrConnect

end Monkey
