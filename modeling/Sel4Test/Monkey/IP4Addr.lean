import Sel4Test.Adl.TString
import Sel4Test.Monkey.Message

/-!
Addresses, `monkey/net/IP4Addr.cc`.

`toString` writes the four octets as decimal numbers with dots between them. `set` splits a
string at its dots and reads every piece with `toInt64`; it refuses a string that has not four
pieces and looks at nothing else. A number that `toInt64` cannot hold leaves it without a
result.

* `set_of_denotes`: a dotted quad is read.
* `set_exact_iff`: what `toString` writes is read back, and the strings for which `set` tells a
  dotted quad from any other string.
* `set_lenient`: it does not for a string with letters.
-/

namespace Monkey

open Adl Adl.TString

/-- `IP4Addr`, as the array of its octets. -/
abbrev IP4Addr := Vector UInt8 4

namespace IP4Addr

/-- `.` -/
def dot : UInt8 := 0x2E

/-- `to_string` of an octet. -/
def octetString (octet : UInt8) : TString := TString.toString octet.toUInt32

/-- `toString`. -/
def toString (ip : IP4Addr) : TString :=
  let ipStr := octetString ip[0]
  let ipStr := ipStr.push dot ++ octetString ip[1]
  let ipStr := ipStr.push dot ++ octetString ip[2]
  ipStr.push dot ++ octetString ip[3]

/-- A round of the loop of `set`. -/
def assign (segments : List TString) (ip : IP4Addr) (i : Fin 4) : Option IP4Addr :=
  (toInt64 (segments.getD i [])).map fun x => Vector.set ip i (UInt8.ofInt x) i.isLt

/-- `set`. -/
def set (ip : IP4Addr) (str : TString) : Option (Status × IP4Addr) :=
  let segments := split str [dot]
  if segments.length ≠ 4 then some (.invalidParameters, ip)
  else (([0, 1, 2, 3] : List (Fin 4)).foldlM (assign segments) ip).map fun ip => (.success, ip)

/-! ### Dotted quads -/

/-- The string is four decimal numbers with single dots between them, and the numbers are the
octets of `ip`. -/
def Denotes (str : TString) (ip : IP4Addr) : Prop :=
  ∃ a b c d : TString, str = a ++ dot :: (b ++ dot :: (c ++ dot :: d)) ∧
    IsDecimal a ip[0].toNat ∧ IsDecimal b ip[1].toNat ∧ IsDecimal c ip[2].toNat ∧
    IsDecimal d ip[3].toNat

/-- The string is a dotted quad. -/
def DottedQuad (str : TString) : Prop := ∃ ip, Denotes str ip

lemma ne_of_digit {s : TString} (h : Digits s) : ∀ c ∈ s, c ≠ 0 ∧ c ≠ dot := by
  intro c hc
  obtain ⟨hlow, -⟩ := h c hc
  constructor
  · rintro rfl
    exact absurd hlow (by decide)
  · rintro rfl
    exact absurd hlow (by decide)

/-- Every byte of a dotted quad is a digit or a dot. -/
lemma Denotes.bytes {str : TString} {ip : IP4Addr} (h : Denotes str ip) :
    ∀ c ∈ str, c = dot ∨ 0x30 ≤ c.toNat ∧ c.toNat ≤ 0x39 := by
  obtain ⟨a, b, c, d, rfl, ha, hb, hc, hd⟩ := h
  intro x hx
  simp only [List.mem_append, List.mem_cons] at hx
  rcases hx with hx | rfl | hx | rfl | hx | rfl | hx
  · exact .inr (ha.digits x hx)
  · exact .inl rfl
  · exact .inr (hb.digits x hx)
  · exact .inl rfl
  · exact .inr (hc.digits x hx)
  · exact .inl rfl
  · exact .inr (hd.digits x hx)

/-- The pieces of a dotted quad are its numbers. -/
lemma pieces_quad {a b c d : TString} {k l m n : ℕ} (ha : IsDecimal a k) (hb : IsDecimal b l)
    (hc : IsDecimal c m) (hd : IsDecimal d n) :
    pieces dot (a ++ dot :: (b ++ dot :: (c ++ dot :: d))) = [a, b, c, d] := by
  have hfilter : ∀ {s : TString}, Digits s → s.filter (· ≠ 0) = s := fun h =>
    List.filter_eq_self.mpr fun c hc => by simpa using (ne_of_digit h c hc).1
  have hdot : ∀ {s : TString}, Digits s → ∀ c ∈ s, (c == dot) = false := fun h c hc => by
    simpa using (ne_of_digit h c hc).2
  have hself : (dot == dot) = true := rfl
  have hkeep : ∀ s : TString, (dot :: s).filter (· ≠ 0) = dot :: s.filter (· ≠ 0) := fun s =>
    List.filter_cons_of_pos rfl
  have hsplit : (a ++ dot :: (b ++ dot :: (c ++ dot :: d))).splitOn dot = [a, b, c, d] := by
    rw [List.splitOn_eq_splitOnP,
      List.splitOnP_append_cons_of_forall_mem (hdot ha.digits) dot hself,
      List.splitOnP_append_cons_of_forall_mem (hdot hb.digits) dot hself,
      List.splitOnP_append_cons_of_forall_mem (hdot hc.digits) dot hself,
      List.splitOnP_eq_singleton (hdot hd.digits)]
  rw [pieces, List.filter_append, hkeep, List.filter_append, hkeep, List.filter_append, hkeep,
    hfilter ha.digits, hfilter hb.digits, hfilter hc.digits, hfilter hd.digits, hsplit]
  refine List.filter_eq_self.mpr fun s hs => ?_
  simp only [List.mem_cons, List.not_mem_nil, or_false] at hs
  rcases hs with rfl | rfl | rfl | rfl
  · simpa using ha.ne_nil
  · simpa using hb.ne_nil
  · simpa using hc.ne_nil
  · simpa using hd.ne_nil

lemma toInt64_octet {s : TString} {x : UInt8} (h : IsDecimal s x.toNat) :
    (toInt64 s).map UInt8.ofInt = some x := by
  have hmax : (x.toNat : ℤ) ≤ int64Max := by
    have := x.toNat_lt
    rw [int64Max]
    omega
  have hlow : ((x.toNat : ℤ) % 2 ^ 8).toNat = x.toNat := by
    have := x.toNat_lt
    omega
  rw [toInt64_digits h hmax, Option.map_some, UInt8.ofInt, hlow, UInt8.ofNat_toNat]

/-- **A dotted quad is read.** -/
lemma set_of_denotes {str : TString} {ip : IP4Addr} (h : Denotes str ip) (old : IP4Addr) :
    set old str = some (.success, ip) := by
  obtain ⟨a, b, c, d, rfl, ha, hb, hc, hd⟩ := h
  have hassign : ∀ (ip : IP4Addr) (i : Fin 4) (x : UInt8),
      IsDecimal ([a, b, c, d].getD i []) x.toNat →
        assign [a, b, c, d] ip i = some (Vector.set ip i x i.isLt) := by
    intro ip i x hx
    obtain ⟨v, hv, rfl⟩ := Option.map_eq_some_iff.mp (toInt64_octet hx)
    rw [assign, hv, Option.map_some]
  rw [set, split_eq (by decide), pieces_quad ha hb hc hd]
  simp only [List.foldlM_cons, List.foldlM_nil]
  rw [if_neg (by simp), hassign old 0 _ ha, Option.bind_eq_bind, Option.bind_some,
    hassign _ 1 _ hb, Option.bind_some, hassign _ 2 _ hc, Option.bind_some, hassign _ 3 _ hd,
    Option.bind_some]
  show some (Status.success, _) = _
  congr 2
  refine Vector.ext fun i hi => ?_
  simp only [Vector.getElem_set]
  interval_cases i <;> rfl

/-- What `toString` writes is a dotted quad. -/
lemma denotes_toString (ip : IP4Addr) : Denotes (toString ip) ip := by
  have hpush : ∀ s : TString, s.push dot = s ++ [dot] := fun s => if_neg (by decide)
  have hoctet : ∀ x : UInt8, IsDecimal (octetString x) x.toNat := fun x => by
    have h := isDecimal_toString x.toUInt32
    rwa [UInt8.toNat_toUInt32] at h
  refine ⟨octetString ip[0], octetString ip[1], octetString ip[2], octetString ip[3], ?_,
    hoctet _, hoctet _, hoctet _, hoctet _⟩
  simp only [toString, hpush, List.append_assoc, List.cons_append, List.nil_append]

/-! ### Which strings are told apart -/

/-- What `set` promises: success for the dotted quads and for no other string, the octets that
the string denotes, and the old address where it denotes none. -/
structure Exact (old : IP4Addr) (str : TString) : Prop where
  ends : (set old str).isSome = true
  success : ∀ status ip, set old str = some (status, ip) →
    (status = .success ↔ DottedQuad str)
  address : ∀ status ip, set old str = some (status, ip) → ∀ quad, Denotes str quad → ip = quad
  unchanged : ∀ status ip, set old str = some (status, ip) → ¬ DottedQuad str → ip = old

/-- **Round trip and exactness.** What `toString` writes is read back, and `set` keeps its
promise exactly for the dotted quads and for the strings without four pieces. -/
theorem set_exact_iff (ip old : IP4Addr) (str : TString) :
    set old (toString ip) = some (.success, ip) ∧
      (Exact old str ↔ DottedQuad str ∨ (pieces dot str).length ≠ 4) := by
  refine ⟨set_of_denotes (denotes_toString ip) old, ?_⟩
  constructor
  · intro h
    by_contra hno
    push Not at hno
    obtain ⟨hquad, hfour⟩ := hno
    obtain ⟨⟨status, ip⟩, hset⟩ := Option.isSome_iff_exists.mp h.ends
    have hstatus : status = .success := by
      rw [set, split_eq (by decide), if_neg (not_not.mpr hfour)] at hset
      obtain ⟨ip', -, hip⟩ := Option.map_eq_some_iff.mp hset
      exact (congrArg Prod.fst hip).symm
    exact hquad ((h.success status ip hset).mp hstatus)
  · intro h
    by_cases hquad : DottedQuad str
    · obtain ⟨quad, hdenotes⟩ := hquad
      refine ⟨by rw [set_of_denotes hdenotes]; rfl, fun status ip hset => ?_,
        fun status ip hset quad' hdenotes' => ?_, fun _ _ _ hno => absurd ⟨quad, hdenotes⟩ hno⟩
      · rw [set_of_denotes hdenotes] at hset
        obtain ⟨rfl, -⟩ := Prod.mk.inj (Option.some.inj hset)
        exact ⟨fun _ => ⟨quad, hdenotes⟩, fun _ => rfl⟩
      · rw [set_of_denotes hdenotes'] at hset
        exact (Prod.mk.inj (Option.some.inj hset)).2.symm
    · have hset : set old str = some (.invalidParameters, old) := by
        rw [set, split_eq (by decide), if_pos (h.resolve_left hquad)]
      refine ⟨by rw [hset]; rfl, fun status ip hset' => ?_,
        fun _ _ _ quad hdenotes => absurd ⟨quad, hdenotes⟩ hquad, fun status ip hset' _ => ?_⟩
      · rw [hset] at hset'
        obtain ⟨rfl, -⟩ := Prod.mk.inj (Option.some.inj hset')
        exact ⟨fun h => (by cases h), fun h => absurd h hquad⟩
      · rw [hset] at hset'
        exact (Prod.mk.inj (Option.some.inj hset')).2.symm

/-- The string `192.16aaa.1.1`. -/
def lettersString : TString :=
  [0x31, 0x39, 0x32, 0x2E, 0x31, 0x36, 0x61, 0x61, 0x61, 0x2E, 0x31, 0x2E, 0x31]

/-- A string with letters is accepted, and overwrites the address. -/
theorem set_lenient :
    set #v[10, 0, 0, 1] lettersString = some (.success, #v[192, 16, 1, 1]) ∧
      ¬ DottedQuad lettersString := by
  refine ⟨by decide, ?_⟩
  rintro ⟨ip, h⟩
  have hletter := h.bytes 0x61 (by decide)
  revert hletter
  decide

end IP4Addr

end Monkey
