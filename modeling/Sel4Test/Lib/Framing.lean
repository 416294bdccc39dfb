import Mathlib.Tactic

/-!
Streams of self-delimiting records.

A record type has an encoder into symbols and a decoder that reads one record
off the front of a stream. `parseAll` reads a whole stream. If the decoder undoes
the encoder in front of any rest, the concatenation of encodings parses back
(`parseAll_flatMap`); if a decoded record accounts for the symbols it was read
from, a stream that parses is as long as its records say (`length_of_parseAll`).
-/

namespace Framing

variable {α β : Type}

/-- `dec` undoes `enc`, whatever follows. -/
def Undoes (dec : List β → Option (α × List β)) (enc : α → List β) : Prop :=
  ∀ a rest, dec (enc a ++ rest) = some (a, rest)

/-- A record read by `dec` accounts for the `size` symbols it was read from, and
there is at least one of them. -/
def Measures (dec : List β → Option (α × List β)) (size : α → ℕ) : Prop :=
  ∀ xs a rest, dec xs = some (a, rest) → xs.length = size a + rest.length ∧ 0 < size a

/-- The records of a stream, for at most `fuel` of them. -/
def parse (dec : List β → Option (α × List β)) : ℕ → List β → Option (List α)
  | _, [] => some []
  | 0, _ :: _ => none
  | fuel + 1, x :: xs => do
      let (a, rest) ← dec (x :: xs)
      let as ← parse dec fuel rest
      return a :: as

/-- The records of a stream: none if it does not end where a record does. -/
def parseAll (dec : List β → Option (α × List β)) (xs : List β) : Option (List α) :=
  parse dec xs.length xs

variable {dec : List β → Option (α × List β)} {enc : α → List β} {size : α → ℕ}

/-- One record in front of a stream that parses. -/
lemma parse_append {fuel : ℕ} {a : α} {rest : List β} {as : List α} (hdec : Undoes dec enc)
    (hne : enc a ≠ []) (h : parse dec fuel rest = some as) :
    parse dec (fuel + 1) (enc a ++ rest) = some (a :: as) := by
  obtain ⟨x, xs, hx⟩ := List.exists_cons_of_ne_nil hne
  have hread : dec (x :: (xs ++ rest)) = some (a, rest) := by
    have := hdec a rest
    rwa [hx] at this
  rw [hx, List.cons_append, parse, hread]
  simp [h]

/-- More fuel does not change what was parsed. -/
lemma parse_mono {fuel fuel' : ℕ} {xs : List β} {as : List α} (hle : fuel ≤ fuel')
    (h : parse dec fuel xs = some as) : parse dec fuel' xs = some as := by
  induction fuel generalizing fuel' xs as with
  | zero =>
      cases xs with
      | nil => simpa [parse] using h
      | cons x xs => simp [parse] at h
  | succ fuel ih =>
      cases xs with
      | nil => simpa [parse] using h
      | cons x xs =>
          obtain ⟨k, rfl⟩ : ∃ k, fuel' = k + 1 := ⟨fuel' - 1, by omega⟩
          rw [parse] at h ⊢
          obtain ⟨⟨a, rest⟩, hread, hrest⟩ := Option.bind_eq_some_iff.mp h
          obtain ⟨as', has, hcons⟩ := Option.bind_eq_some_iff.mp hrest
          simp only [hread, Option.bind_eq_bind, Option.bind_some]
          rw [ih (by omega) has]
          exact hcons

/-- **A concatenation of encodings parses back.** -/
lemma parseAll_flatMap (hdec : Undoes dec enc) (hne : ∀ a, enc a ≠ []) (as : List α) :
    parseAll dec (as.flatMap enc) = some as := by
  induction as with
  | nil => rfl
  | cons a as ih =>
      have hlen : 1 ≤ (enc a).length := List.length_pos_of_ne_nil (hne a)
      have hone := parse_append hdec (hne a) ih
      rw [List.flatMap_cons]
      refine parse_mono ?_ hone
      simp only [List.length_append]
      omega

/-- A stream that parses is as long as its records say. -/
lemma length_of_parse {fuel : ℕ} {xs : List β} {as : List α} (hsize : Measures dec size)
    (h : parse dec fuel xs = some as) : xs.length = (as.map size).sum := by
  induction fuel generalizing xs as with
  | zero =>
      cases xs with
      | nil =>
          obtain rfl : [] = as := by simpa [parse] using h
          rfl
      | cons x xs => simp [parse] at h
  | succ fuel ih =>
      cases xs with
      | nil =>
          obtain rfl : [] = as := by simpa [parse] using h
          rfl
      | cons x xs =>
          rw [parse] at h
          obtain ⟨⟨a, rest⟩, hread, hrest⟩ := Option.bind_eq_some_iff.mp h
          obtain ⟨as', has, hcons⟩ := Option.bind_eq_some_iff.mp hrest
          obtain rfl : a :: as' = as := by simpa using hcons
          rw [(hsize _ _ _ hread).1, ih has, List.map_cons, List.sum_cons]

lemma length_of_parseAll {xs : List β} {as : List α} (hsize : Measures dec size)
    (h : parseAll dec xs = some as) : xs.length = (as.map size).sum :=
  length_of_parse hsize h

end Framing
