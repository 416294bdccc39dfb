import Sel4Test.Frontend.Creation

/-!
Connecting to an address string, `front/src/frontend_api.c` with the macros
`IPV4_PORT_STR_TO_TUPLE` and `IPV4_STR_TO_ADDR` of `session.h`.

The macros read the string with `sscanf` and write the address and the port into the
parameters of the connection. They print an error when something is wrong with the
string, but they cannot stop their caller, which connects in any case: to what the
parameters hold, and what was not written is whatever lay on the stack.

A string is the list of its bytes before the terminator. `scanU` follows `vfscanf` and
`__intscan` of the C library: white space before the number, a sign, the largest value
after an overflow, and a result cut to 32 bits.

* `acceptedAddr`: the octets of a string that passes all checks of the macros.
* `acceptedAddr_dottedQuad`: four decimal numbers up to 255 and a port up to 65535 pass.
* `connect_refuses_iff`: strings that do not pass are refused without an effect exactly
  if no CREATE command can be sent and the free ids do not change either.
-/

namespace Frontend

open ByteMem Hyperamp

/-! ### The scanner -/

def isSpace (ch : UInt8) : Bool := ch = 32 || (9 ≤ ch && ch ≤ 13)

def isDigit (ch : UInt8) : Bool := 48 ≤ ch && ch ≤ 57

/-- The value of a string of digits. -/
def decimal (digits : List UInt8) : ℕ := digits.foldl (fun v ch => 10 * v + (ch.toNat - 48)) 0

/-- The `unsigned int` that is stored for a number with or without a minus sign. -/
def toUnsigned (neg : Bool) (v : ℕ) : ℕ :=
  if v < 2 ^ 64 then (if neg then 2 ^ 64 - v else v) % 2 ^ 32 else 2 ^ 32 - 1

/-- The conversion `%u`: the number and the rest of the string. -/
def scanU (s : List UInt8) : Option (ℕ × List UInt8) :=
  let s := s.dropWhile isSpace
  let neg : Bool := s.head? = some 45
  let s := if s.head? = some 43 ∨ neg then s.tail else s
  let digits := s.takeWhile isDigit
  if digits = [] then none
  else some (toUnsigned neg (decimal digits), s.drop digits.length)

/-- A character of the format that stands for itself. -/
def scanChar (ch : UInt8) (s : List UInt8) : Option (List UInt8) :=
  if s.head? = some ch then some s.tail else none

/-- `%u.%u.%u.%u` with four results. -/
def scanQuad (s : List UInt8) : Option (ℕ × ℕ × ℕ × ℕ) := do
  let (a, s) ← scanU s
  let s ← scanChar 46 s
  let (b, s) ← scanU s
  let s ← scanChar 46 s
  let (c, s) ← scanU s
  let s ← scanChar 46 s
  let (d, _) ← scanU s
  return (a, b, c, d)

/-- `%15[^:]:%u` with two results. -/
def scanAddrPort (s : List UInt8) : Option (List UInt8 × ℕ) :=
  let ip := (s.take 15).takeWhile (· ≠ 58)
  if ip = [] then none
  else do
    let s ← scanChar 58 (s.drop ip.length)
    let (port, _) ← scanU s
    return (ip, port)

/-! ### The macros -/

/-- The six bytes of an `IPv4PortTuple` with another address. -/
def setAddr (tuple : Vector UInt8 6) (a b c d : UInt8) : Vector UInt8 6 :=
  #v[a, b, c, d, tuple[4], tuple[5]]

/-- The six bytes with another port. -/
def setPort (tuple : Vector UInt8 6) (port : UInt16) : Vector UInt8 6 :=
  #v[tuple[0], tuple[1], tuple[2], tuple[3], port.toUInt8, (port >>> 8).toUInt8]

/-- The check of the octets. -/
def OctetsValid (q : ℕ × ℕ × ℕ × ℕ) : Prop :=
  q.1 ≤ 255 ∧ q.2.1 ≤ 255 ∧ q.2.2.1 ≤ 255 ∧ q.2.2.2 ≤ 255

instance (q : ℕ × ℕ × ℕ × ℕ) : Decidable (OctetsValid q) := inferInstanceAs (Decidable (_ ∧ _))

/-- `IPV4_STR_TO_ADDR`. -/
def ipv4StrToAddr (ip : List UInt8) (tuple : Vector UInt8 6) : Vector UInt8 6 :=
  (scanQuad ip).elim tuple fun q =>
    if OctetsValid q then
      setAddr tuple (UInt8.ofNat q.1) (UInt8.ofNat q.2.1) (UInt8.ofNat q.2.2.1)
        (UInt8.ofNat q.2.2.2)
    else tuple

/-- `IPV4_PORT_STR_TO_TUPLE`. -/
def ipv4PortStrToTuple (s : List UInt8) (tuple : Vector UInt8 6) : Vector UInt8 6 :=
  (scanAddrPort s).elim tuple fun r =>
    let tuple := ipv4StrToAddr r.1 tuple
    if 65535 < r.2 then tuple else setPort tuple (UInt16.ofNat r.2)

/-- The octets of a string for which the macros print no error. -/
def acceptedAddr (s : List UInt8) : Option (List UInt8) := do
  let (ip, port) ← scanAddrPort s
  let q ← scanQuad ip
  if OctetsValid q ∧ port ≤ 65535 then
    return [UInt8.ofNat q.1, UInt8.ofNat q.2.1, UInt8.ofNat q.2.2.1, UInt8.ofNat q.2.2.2]
  else none

/-! ### The connection -/

/-- `BACKEND_HANDOVER_SESSION_ID`. -/
def backendHandoverSessionId : UInt16 := 0xFFFF

/-- `DEV_ID_AUTO_HANDOVER`. -/
def devIdAutoHandover : UInt16 := 0xFF

/-- The parameters that `frontend_sess_connect_by_addrstr` passes on; `stack` is what its
local variable holds before. -/
def addrStrPara (proto : ℤ) (addrStr : List UInt8) (stack : Vector UInt8 6) : SessMsgPara where
  backendSessId := backendHandoverSessionId
  devId := devIdAutoHandover
  ipVersion := sessIpv4Proto
  transProto := UInt16.ofNat (proto % 2 ^ 16).toNat
  endpoint := ipv4PortStrToTuple addrStr stack

/-- `frontend_sess_connect`. -/
def frontendSessConnect (para : SessMsgPara) (p : SessPtr) (tx : Option TxRing) (c : Core) :
    Option (ProcessRet × Option TxRing × Core) :=
  createSessTx para p tx c

/-- `frontend_sess_connect_by_addrstr`. -/
def frontendSessConnectByAddrstr (proto : ℤ) (addrStr : List UInt8) (stack : Vector UInt8 6)
    (p : SessPtr) (tx : Option TxRing) (c : Core) : Option (ProcessRet × Option TxRing × Core) :=
  frontendSessConnect (addrStrPara proto addrStr stack) p tx c

/-- The address in the payload of a CREATE command. -/
def payloadAddr (payload : List UInt8) : List UInt8 := (payload.drop 4).take 4

/-- What is sent goes to the address in the string, and a string that does not pass has
no effect but an error. -/
def ConnectExact (proto : ℤ) (addrStr : List UInt8) (stack : Vector UInt8 6) (p : SessPtr)
    (tx : Option TxRing) (c : Core) : Prop :=
  ∃ ret tx' c', frontendSessConnectByAddrstr proto addrStr stack p tx c = some (ret, tx', c') ∧
    (tx' ≠ tx → ∃ octets ring bytes id payload, acceptedAddr addrStr = some octets ∧
      tx = some ring ∧ tx' = some (ring.push bytes) ∧ IsCreate bytes id payload ∧
      payloadAddr payload = octets) ∧
    (acceptedAddr addrStr = none → ret = .error ∧ c'.pool = c.pool ∧ tx' = tx)

/-! ### Octets -/

variable {s ip : List UInt8} {octets : List UInt8} {proto : ℤ} {stack : Vector UInt8 6}

/-- The octets of an accepted string are the address of the payload. -/
lemma payloadAddr_accepted (h : acceptedAddr s = some octets) :
    payloadAddr (createPayload (addrStrPara proto s stack)) = octets := by
  obtain ⟨⟨ip, port⟩, hscan, h⟩ := Option.bind_eq_some_iff.mp h
  obtain ⟨q, hquad, h⟩ := Option.bind_eq_some_iff.mp h
  split_ifs at h with hvalid
  obtain rfl := Option.some.inj h
  have htuple : ipv4PortStrToTuple s stack =
      setPort (setAddr stack (UInt8.ofNat q.1) (UInt8.ofNat q.2.1) (UInt8.ofNat q.2.2.1)
        (UInt8.ofNat q.2.2.2)) (UInt16.ofNat port) := by
    rw [ipv4PortStrToTuple, hscan, Option.elim_some]
    rw [if_neg (by dsimp only; omega), ipv4StrToAddr, hquad, Option.elim_some, if_pos hvalid.1]
  have hlen : ∀ v w : ℕ, (toLE 2 v ++ toLE 2 w).length = 4 := by
    intro v w
    rw [List.length_append, length_toLE, length_toLE]
  rw [payloadAddr, createPayload, ← hlen (addrStrPara proto s stack).devId.toNat
    (addrStrPara proto s stack).transProto.toNat, List.drop_left, hlen]
  have hend : (addrStrPara proto s stack).endpoint = ipv4PortStrToTuple s stack := rfl
  rw [hend, htuple]
  rfl

/-! ### Dotted quads -/

/-- A decimal number without a sign. -/
structure Number (ds : List UInt8) : Prop where
  digits : ∀ ch ∈ ds, isDigit ch
  ne_nil : ds ≠ []

/-- A number is read up to the first character that is no digit. -/
lemma scanU_number {ds rest : List UInt8} (h : Number ds) (hval : decimal ds < 2 ^ 32)
    (hrest : ∀ ch, rest.head? = some ch → ¬ isDigit ch) :
    scanU (ds ++ rest) = some (decimal ds, rest) := by
  obtain ⟨ch, ds', rfl⟩ := List.exists_cons_of_ne_nil h.ne_nil
  have hdigit : isDigit ch := h.digits ch List.mem_cons_self
  have hspace : ¬ isSpace ch := by
    simp only [isDigit, isSpace, Bool.and_eq_true, Bool.or_eq_true, decide_eq_true_eq] at hdigit ⊢
    rintro (rfl | hlow)
    · exact absurd hdigit.1 (by decide)
    · have hge : 48 ≤ ch.toNat := UInt8.le_iff_toNat_le.mp hdigit.1
      have hle : ch.toNat ≤ 13 := UInt8.le_iff_toNat_le.mp hlow.2
      omega
  have hplus : ch ≠ 43 := by
    rintro rfl
    exact absurd hdigit (by decide)
  have hminus : ch ≠ 45 := by
    rintro rfl
    exact absurd hdigit (by decide)
  have hdrop : ((ch :: ds') ++ rest).dropWhile isSpace = (ch :: ds') ++ rest := by
    rw [List.cons_append, List.dropWhile_cons_of_neg hspace]
  have htake : ((ch :: ds') ++ rest).takeWhile isDigit = ch :: ds' := by
    rw [List.takeWhile_append_of_pos h.digits]
    have hstop : rest.takeWhile isDigit = [] := by
      cases rest with
      | nil => rfl
      | cons x xs => exact List.takeWhile_cons_of_neg (hrest x rfl)
    rw [hstop, List.append_nil]
  have hneg : decide (((ch :: ds') ++ rest).head? = some 45) = false := by
    rw [List.cons_append, List.head?_cons]
    simpa using hminus
  have hsign : ¬ (((ch :: ds') ++ rest).head? = some 43 ∨ false = true) := by
    rw [List.cons_append, List.head?_cons]
    simpa using hplus
  simp only [scanU]
  rw [hdrop, hneg, if_neg hsign, htake, if_neg (by simp), List.drop_left, toUnsigned,
    if_pos (by omega), if_neg (by simp), Nat.mod_eq_of_lt hval]

lemma scanChar_self (ch : UInt8) (s : List UInt8) : scanChar ch (ch :: s) = some s := by
  rw [scanChar, List.head?_cons, if_pos rfl, List.tail_cons]

section DottedQuad

variable {a b c d port : List UInt8} (ha : Number a) (hb : Number b) (hc : Number c)
  (hd : Number d)

include ha hb hc hd

/-- Four numbers with points between them. -/
lemma scanQuad_dotted (hlt : ∀ ds ∈ [a, b, c, d], decimal ds ≤ 255) :
    scanQuad (a ++ 46 :: (b ++ 46 :: (c ++ 46 :: d))) =
      some (decimal a, decimal b, decimal c, decimal d) := by
  have hpoint : ∀ {s : List UInt8} (ch), (46 :: s).head? = some ch → ¬ isDigit ch := by
    intro s ch hch
    obtain rfl := Option.some.inj hch
    decide
  have hbound : ∀ ds ∈ [a, b, c, d], decimal ds < 2 ^ 32 :=
    fun ds hds => (hlt ds hds).trans_lt (by norm_num)
  have hlast : scanU d = some (decimal d, []) := by
    have h : scanU (d ++ []) = some (decimal d, []) :=
      scanU_number hd (hbound d (by simp)) (by simp)
    rwa [List.append_nil] at h
  rw [scanQuad, scanU_number ha (hbound a (by simp)) hpoint]
  simp only [Option.bind_eq_bind, Option.bind_some, scanChar_self]
  rw [scanU_number hb (hbound b (by simp)) hpoint]
  simp only [Option.bind_some, scanChar_self]
  rw [scanU_number hc (hbound c (by simp)) hpoint]
  simp only [Option.bind_some, scanChar_self, hlast]
  rfl

/-- **Dotted quads are accepted** with their numbers as octets. -/
theorem acceptedAddr_dottedQuad (hport : Number port)
    (hlt : ∀ ds ∈ [a, b, c, d], decimal ds ≤ 255) (hp : decimal port ≤ 65535)
    (hlen : (a ++ 46 :: (b ++ 46 :: (c ++ 46 :: d))).length ≤ 15) :
    acceptedAddr (a ++ 46 :: (b ++ 46 :: (c ++ 46 :: d)) ++ 58 :: port) =
      some [UInt8.ofNat (decimal a), UInt8.ofNat (decimal b), UInt8.ofNat (decimal c),
        UInt8.ofNat (decimal d)] := by
  have hquad := scanQuad_dotted ha hb hc hd hlt
  set ip := a ++ 46 :: (b ++ 46 :: (c ++ 46 :: d)) with hip
  have hcolon : ∀ ch ∈ ip, ch ≠ 58 := by
    have hnum : ∀ {ds : List UInt8}, Number ds → ∀ ch ∈ ds, ch ≠ 58 := by
      rintro ds hds ch hch rfl
      exact absurd (hds.digits 58 hch) (by decide)
    have hdot : (46 : UInt8) ≠ 58 := by decide
    intro ch hch
    simp only [hip, List.mem_append, List.mem_cons] at hch
    rcases hch with hch | rfl | hch | rfl | hch | rfl | hch
    · exact hnum ha ch hch
    · exact hdot
    · exact hnum hb ch hch
    · exact hdot
    · exact hnum hc ch hch
    · exact hdot
    · exact hnum hd ch hch
  -- the first conversion stops at the colon, which comes within its 15 characters
  have hfield : ((ip ++ 58 :: port).take 15).takeWhile (· ≠ 58) = ip := by
    have hall : ∀ ch ∈ ip, (decide (ch ≠ 58)) = true := fun ch hch => by simpa using hcolon ch hch
    rw [List.take_append, List.take_of_length_le hlen, List.takeWhile_append_of_pos hall]
    have hstop : ((58 :: port).take (15 - ip.length)).takeWhile (fun ch => decide (ch ≠ 58)) = [] := by
      cases 15 - ip.length with
      | zero => rfl
      | succ n =>
          rw [List.take_succ_cons]
          exact List.takeWhile_cons_of_neg (by simp)
    rw [hstop, List.append_nil]
  have hne : ip ≠ [] := by
    rw [hip]
    simp
  have hscan : scanAddrPort (ip ++ 58 :: port) = some (ip, decimal port) := by
    have hlast : scanU port = some (decimal port, []) := by
      have h : scanU (port ++ []) = some (decimal port, []) :=
        scanU_number hport (hp.trans_lt (by norm_num)) (by simp)
      rwa [List.append_nil] at h
    rw [scanAddrPort]
    simp only [hfield, if_neg hne, List.drop_left, scanChar_self, Option.bind_eq_bind,
      Option.bind_some, hlast]
    rfl
  have hvalid : OctetsValid (decimal a, decimal b, decimal c, decimal d) ∧ decimal port ≤ 65535 :=
    ⟨⟨hlt a (by simp), hlt b (by simp), hlt c (by simp), hlt d (by simp)⟩, hp⟩
  rw [acceptedAddr, hscan]
  simp only [Option.bind_eq_bind, Option.bind_some, hquad]
  rw [if_pos hvalid]
  rfl

end DottedQuad

/-! ### Strings that do not pass -/

variable {p : SessPtr} {tx : Option TxRing} {c : Core} {sess : FrontendSession}

/-- No CREATE command can be sent and the failed attempt leaves the free ids as they
are. -/
def NothingToSend (tx : Option TxRing) (c : Core) : Prop :=
  ∀ id rest, c.pool.idQueue = id :: rest →
    id ≠ 0 ∧ rest ++ [id] = c.pool.idQueue ∧ ∀ ring, tx = some ring → ¬ ring.Accepts createSize

lemma createSendable_addrStr :
    CreateSendable (addrStrPara proto s stack) tx ↔ ∃ ring, tx = some ring ∧ ring.Accepts createSize :=
  ⟨fun h => h.2, fun h => ⟨rfl, h⟩⟩

/-- With an id other than `0` at hand, the call returns, and what it adds to the ring is
a CREATE command with its parameters. -/
lemma connect_sends {id : UInt16} {rest : List UInt16} (hsess : c.heap p = some sess)
    (hout : ¬ c.InTable p) (hids : c.pool.idQueue = id :: rest) (hid : id ≠ 0)
    (hsend : CreateSendable (addrStrPara proto s stack) tx) :
    ∃ ret ring bytes c', tx = some ring ∧
      IsCreate bytes id (createPayload (addrStrPara proto s stack)) ∧
      frontendSessConnectByAddrstr proto s stack p tx c = some (ret, some (ring.push bytes), c') := by
  by_cases hkey : searchSess c.pool id = none
  · obtain ⟨ring, bytes, htx, hmsg, heval⟩ := createSessTx_created hsess hout hids hid hsend hkey
    exact ⟨_, ring, bytes, _, htx, hmsg, heval⟩
  · obtain ⟨ring, bytes, htx, hmsg, heval⟩ := createSessTx_taken hsess hout hids hid hsend hkey
    exact ⟨_, ring, bytes, _, htx, hmsg, heval⟩

/-- **When an address string is treated exactly**: the string passes all checks, or no
CREATE command can be sent and the attempt does not change the free ids. -/
theorem connect_exact_iff (proto : ℤ) (s : List UInt8) (stack : Vector UInt8 6) (p : SessPtr)
    (tx : Option TxRing) (c : Core) (sess : FrontendSession) (hsess : c.heap p = some sess)
    (hout : ¬ c.InTable p) :
    ConnectExact proto s stack p tx c ↔ acceptedAddr s ≠ none ∨ NothingToSend tx c := by
  constructor
  · rintro ⟨ret, tx', c', heval, -, hrefused⟩
    by_cases hacc : acceptedAddr s = none
    · refine .inr fun id rest hids => ?_
      obtain ⟨-, hpool, htx⟩ := hrefused hacc
      -- an ID 0 is taken and lost, which the pool shows
      have hid : id ≠ 0 := by
        rintro rfl
        have hzero : frontendSessConnectByAddrstr proto s stack p tx c =
            some (.error, tx, c.setIds rest) := createSessTx_zero hsess hids
        have hsame : some (.error, tx, c.setIds rest) = some (ret, tx', c') := by
          rw [← hzero, ← heval]
        simp only [Option.some.injEq, Prod.mk.injEq] at hsame
        obtain ⟨-, -, rfl⟩ := hsame
        have hlen := congrArg (fun pool => pool.idQueue.length) hpool
        simp [Core.setIds, hids] at hlen
      -- a request that is sent shows on the ring, and one that is not gives its ID back at the
      -- end
      by_cases hsend : CreateSendable (addrStrPara proto s stack) tx
      · obtain ⟨_, ring, bytes, _, rfl, -, hsent⟩ := connect_sends hsess hout hids hid hsend
        rw [hsent] at heval
        simp only [Option.some.injEq, Prod.mk.injEq] at heval
        obtain ⟨-, rfl, -⟩ := heval
        exact absurd (Option.some.inj htx) (push_ne ring bytes)
      · refine ⟨hid, ?_, fun ring htx hroom => hsend (createSendable_addrStr.mpr ⟨ring, htx, hroom⟩)⟩
        have hunsent := createSessTx_unsent hsess hout hids hid hsend
        rw [frontendSessConnectByAddrstr, frontendSessConnect, hunsent] at heval
        simp only [Option.some.injEq, Prod.mk.injEq] at heval
        obtain ⟨-, -, rfl⟩ := heval
        exact congrArg FrontendSessionPool.idQueue hpool
    · exact .inl hacc
  · intro h
    cases hids : c.pool.idQueue with
    | nil =>
        exact ⟨.error, tx, c, createSessTx_empty hsess hids, fun hne => absurd rfl hne,
          fun _ => ⟨rfl, rfl, rfl⟩⟩
    | cons id rest =>
        by_cases hid : id = 0
        · subst hid
          have hacc : acceptedAddr s ≠ none := by
            rcases h with hacc | hnone
            · exact hacc
            · exact absurd rfl (hnone 0 rest hids).1
          exact ⟨.error, tx, _, createSessTx_zero hsess hids, fun hne => absurd rfl hne,
            fun hnone => absurd hnone hacc⟩
        · by_cases hsend : CreateSendable (addrStrPara proto s stack) tx
          · obtain ⟨ret, ring, bytes, c', htx, hmsg, hsent⟩ :=
              connect_sends hsess hout hids hid hsend
            have hacc : acceptedAddr s ≠ none := by
              rcases h with hacc | hnone
              · exact hacc
              · obtain ⟨ring, htx, hroom⟩ := createSendable_addrStr.mp hsend
                exact absurd hroom ((hnone id rest hids).2.2 ring htx)
            obtain ⟨octets, hoctets⟩ := Option.ne_none_iff_exists'.mp hacc
            refine ⟨ret, _, c', hsent, fun _ => ?_, fun hnone => absurd hnone hacc⟩
            exact ⟨octets, ring, bytes, id, _, hoctets, htx, rfl, hmsg,
              payloadAddr_accepted hoctets⟩
          · have hunsent := createSessTx_unsent hsess hout hids hid hsend
            refine ⟨.error, tx, _, hunsent, fun hne => absurd rfl hne, fun hnone => ?_⟩
            have hrotate : rest ++ [id] = c.pool.idQueue := by
              rcases h with hacc | hquiet
              · exact absurd hnone hacc
              · exact (hquiet id rest hids).2.1
            refine ⟨rfl, ?_, rfl⟩
            rw [hrotate]
            rfl

/-- The string 192.168.137.2:8888 with a fresh pool and an empty ring. -/
theorem connect_exact_sample :
    ConnectExact 0 [49, 57, 50, 46, 49, 54, 56, 46, 49, 51, 55, 46, 50, 58, 56, 56, 56, 56]
      (Vector.replicate 6 0) 7 (some ⟨64, 4096, []⟩) (sampleCore [1, 2] []) :=
  (connect_exact_iff _ _ _ _ _ _ newSess rfl (by decide)).mpr (.inl (by decide))

/-- The string 300.1.2.3:80 is refused by the check of the octets. A CREATE command is
sent all the same, to the address that lay on the stack. -/
theorem connect_sends_refused :
    ¬ ConnectExact 0 [51, 48, 48, 46, 49, 46, 50, 46, 51, 58, 56, 48] (Vector.replicate 6 9) 7
      (some ⟨64, 4096, []⟩) (sampleCore [1, 2] []) := by
  rintro ⟨ret, tx', c', heval, -, hrefused⟩
  have hrun : (frontendSessConnectByAddrstr 0 [51, 48, 48, 46, 49, 46, 50, 46, 51, 58, 56, 48]
      (Vector.replicate 6 9) 7 (some ⟨64, 4096, []⟩) (sampleCore [1, 2] [])).map
        (fun r => r.2.1.map fun ring => ring.msgs.map fun msg => payloadAddr (msg.drop 18)) =
        some (some [[9, 9, 9, 9]]) := by
    decide +kernel
  rw [heval] at hrun
  obtain ⟨-, -, rfl⟩ := hrefused (by decide)
  simp at hrun

end Frontend
