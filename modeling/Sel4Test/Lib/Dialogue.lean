import Sel4Test.Lib.Exec
import Mathlib.Order.GameAdd

/-!
Programs that talk over a byte stream, and two of them talking to each other.

A `Prog` is a tree of calls: `send` hands symbols to the stream and is told how
many were taken (`-1` for an error), `recv` asks for at most `len` symbols and is
given some of them, at least one, or an error, and `alloc` asks for memory. Loops
that wait for a number of symbols are written with `recvAll`; a call of the real
`recv` that returns nothing changes nothing in such a loop, so it is not a step.

`wp F p S Q` says that `p`, with the symbols `S` to receive, ends in a way that `Q`
allows, however the receives cut `S` and whichever of the operations in `F` fail:
`Q (some r) rest out` for the result `r` with `rest` left over and `out` sent, and
`Q none [] out` when it waits for more. The rules are `wp_mono`, `wp_bind` and
`wp_recvAll`.

Two programs over two channels are a `Net`, whose steps are those of either side in
any order. `Net.ends`: if both sides end on the history of the other, and the
histories can be built up from nothing, then along every run a side that is done
has the result it should have, and the run only stops when each side is as far as
it gets. `step_wellFounded`: every run does stop.
-/

namespace Dialogue

/-! ### Programs -/

/-- Which operations may fail. -/
structure Faults where
  send : Prop
  recv : Prop
  alloc : Prop

/-- Nothing fails. -/
def reliable : Faults := ⟨False, False, False⟩

/-- A program over streams of `β`. -/
inductive Prog (β ρ : Type)
  | done (r : ρ)
  | send (data : List β) (k : ℤ → Prog β ρ)
  | recv (len : ℕ) (k : Option (List β) → Prog β ρ)
  | alloc (k : Bool → Prog β ρ)

variable {β ρ σ : Type}

namespace Prog

/-- One program after the other. -/
def bind : Prog β ρ → (ρ → Prog β σ) → Prog β σ
  | done r, f => f r
  | send data k, f => send data fun n => (k n).bind f
  | recv len k, f => recv len fun bs => (k bs).bind f
  | alloc k, f => alloc fun ok => (k ok).bind f

instance : Monad (Prog β) where
  pure := done
  bind := bind

@[simp] lemma pure_eq (r : ρ) : (pure r : Prog β ρ) = done r := rfl

@[simp] lemma bind_eq (p : Prog β ρ) (f : ρ → Prog β σ) : p >>= f = p.bind f := rfl

@[simp] lemma done_bind (r : ρ) (f : ρ → Prog β σ) : (done r).bind f = f r := rfl

/-- Hand symbols to the stream. -/
def put (data : List β) : Prog β ℤ := send data done

/-- Ask for memory. -/
def new : Prog β Bool := alloc done

/-- The loop `while (received < n)` around `recv`: exactly `n` symbols, or nothing after
an error. A round that gets symbols gets at least one, so `n` rounds are enough. -/
def recvLoop : ℕ → ℕ → Prog β (Option (List β))
  | _, 0 => done (some [])
  | 0, _ + 1 => done none
  | fuel + 1, n + 1 =>
      recv (n + 1) fun got =>
        match got with
        | none => done none
        | some bs => (recvLoop fuel (n + 1 - bs.length)).bind fun more => done (more.map (bs ++ ·))

/-- Exactly `n` symbols. -/
def recvAll (n : ℕ) : Prog β (Option (List β)) := recvLoop n n

end Prog

open Prog

/-! ### What a program does with a stream -/

/-- Every way in which the program can go ends as `Q` says. -/
def wp (F : Faults) : Prog β ρ → List β → (Option ρ → List β → List β → Prop) → Prop
  | done r, S, Q => Q (some r) S []
  | send data k, S, Q =>
      wp F (k data.length) S (fun r rest out => Q r rest (data ++ out)) ∧
        (F.send → wp F (k (-1)) S Q ∧
          ∀ n < data.length, wp F (k n) S fun r rest out => Q r rest (data.take n ++ out))
  | recv len k, S, Q =>
      (S = [] ∨ len = 0 → Q none S []) ∧ (F.recv → wp F (k none) S Q) ∧
        ∀ bs rest, S = bs ++ rest → bs ≠ [] → bs.length ≤ len → wp F (k (some bs)) rest Q
  | alloc k, S, Q => wp F (k true) S Q ∧ (F.alloc → wp F (k false) S Q)

variable {F : Faults} {p : Prog β ρ} {S : List β} {Q Q' : Option ρ → List β → List β → Prop}

lemma wp_mono (h : wp F p S Q) (hQ : ∀ r rest out, Q r rest out → Q' r rest out) :
    wp F p S Q' := by
  induction p generalizing S Q Q' with
  | done r => exact hQ _ _ _ h
  | send data k ih =>
      refine ⟨ih _ h.1 fun r rest out => hQ _ _ _, fun hF => ⟨ih _ (h.2 hF).1 hQ, ?_⟩⟩
      exact fun n hn => ih _ ((h.2 hF).2 n hn) fun r rest out => hQ _ _ _
  | recv len k ih =>
      refine ⟨fun hS => hQ _ _ _ (h.1 hS), fun hF => ih _ (h.2.1 hF) hQ, ?_⟩
      exact fun bs rest hS hne hlen => ih _ (h.2.2 bs rest hS hne hlen) hQ
  | alloc k ih => exact ⟨ih _ h.1 hQ, fun hF => ih _ (h.2 hF) hQ⟩

lemma wp_true (F : Faults) (p : Prog β ρ) (S : List β) : wp F p S fun _ _ _ => True := by
  induction p generalizing S with
  | done r => trivial
  | send data k ih => exact ⟨ih _ _, fun _ => ⟨ih _ _, fun n _ => ih _ _⟩⟩
  | recv len k ih => exact ⟨fun _ => trivial, fun _ => ih _ _, fun _ _ _ _ _ => ih _ _⟩
  | alloc k ih => exact ⟨ih _ _, fun _ => ih _ _⟩

/-- Two promises are one. -/
lemma wp_and (h : wp F p S Q) (h' : wp F p S Q') :
    wp F p S fun r rest out => Q r rest out ∧ Q' r rest out := by
  induction p generalizing S Q Q' with
  | done r => exact ⟨h, h'⟩
  | send data k ih =>
      refine ⟨ih _ h.1 h'.1, fun hF => ⟨ih _ (h.2 hF).1 (h'.2 hF).1, ?_⟩⟩
      exact fun n hn => ih _ ((h.2 hF).2 n hn) ((h'.2 hF).2 n hn)
  | recv len k ih =>
      refine ⟨fun hS => ⟨h.1 hS, h'.1 hS⟩, fun hF => ih _ (h.2.1 hF) (h'.2.1 hF), ?_⟩
      exact fun bs rest hS hne hlen =>
        ih _ (h.2.2 bs rest hS hne hlen) (h'.2.2 bs rest hS hne hlen)
  | alloc k ih => exact ⟨ih _ h.1 h'.1, fun hF => ih _ (h.2 hF) (h'.2 hF)⟩

/-- **Sequencing**: the second program goes on where the first one ends. -/
lemma wp_bind {f : ρ → Prog β σ} {Q : Option σ → List β → List β → Prop}
    (h : wp F p S fun r rest out =>
      match r with
      | none => Q none rest out
      | some r => wp F (f r) rest fun r' rest' out' => Q r' rest' (out ++ out')) :
    wp F (p.bind f) S Q := by
  induction p generalizing S Q with
  | done r => exact h
  | send data k ih =>
      refine ⟨ih _ (wp_mono h.1 ?_), fun hF => ⟨ih _ (h.2 hF).1, fun n hn =>
        ih _ (wp_mono ((h.2 hF).2 n hn) ?_)⟩⟩
      · rintro (_ | r) rest out hr
        · exact hr
        · simpa only [List.append_assoc] using hr
      · rintro (_ | r) rest out hr
        · exact hr
        · simpa only [List.append_assoc] using hr
  | recv len k ih =>
      refine ⟨h.1, fun hF => ih _ (h.2.1 hF), ?_⟩
      exact fun bs rest hS hne hlen => ih _ (h.2.2 bs rest hS hne hlen)
  | alloc k ih => exact ⟨ih _ h.1, fun hF => ih _ (h.2 hF)⟩

/-- Whatever becomes of a `send`, the answer is `-1` and nothing was taken, or it is the
number of the first symbols that were. -/
lemma wp_put {Q : Option ℤ → List β → List β → Prop} {data : List β}
    (hfail : Q (some (-1)) S [])
    (htook : ∀ n ≤ data.length, Q (some n) S (data.take n)) : wp F (put data) S Q := by
  have hall := htook data.length le_rfl
  rw [List.take_length] at hall
  refine ⟨?_, fun _ => ⟨hfail, fun n hn => ?_⟩⟩
  · simpa [wp] using hall
  · simpa [wp] using htook n hn.le

/-- A `send` that does not fail takes everything. -/
lemma wp_put_of_reliable {Q : Option ℤ → List β → List β → Prop} {data : List β}
    (hF : ¬ F.send) (h : Q (some data.length) S data) : wp F (put data) S Q := by
  refine ⟨?_, fun hsend => absurd hsend hF⟩
  simpa [wp] using h

/-- An allocation succeeds, or fails where it may. -/
lemma wp_new {Q : Option Bool → List β → List β → Prop} (h : Q (some true) S [])
    (hfail : F.alloc → Q (some false) S []) : wp F new S Q :=
  ⟨h, hfail⟩

/-- Without errors, `recvAll n` takes the first `n` symbols, in whatever pieces they
come, and waits if there are fewer. -/
lemma wp_recvLoop {fuel n : ℕ} {Q : Option (Option (List β)) → List β → List β → Prop}
    (hF : ¬ F.recv) (hfuel : n ≤ fuel) (hlong : n ≤ S.length → Q (some (some (S.take n))) (S.drop n) [])
    (hshort : S.length < n → Q none [] []) : wp F (recvLoop fuel n) S Q := by
  induction fuel generalizing n S Q with
  | zero =>
      obtain rfl : n = 0 := by omega
      simpa [recvLoop, wp] using hlong (Nat.zero_le _)
  | succ fuel ih =>
      cases n with
      | zero => simpa [recvLoop, wp] using hlong (Nat.zero_le _)
      | succ n =>
          refine ⟨?_, fun h => absurd h hF, ?_⟩
          · rintro (rfl | hzero)
            · exact hshort (by simp)
            · cases hzero
          · rintro bs rest rfl hne hlen
            have hpos : 0 < bs.length := List.length_pos_of_ne_nil hne
            apply wp_bind
            apply ih (by omega)
            · intro hrest
              have htake : (bs ++ rest).take (n + 1) = bs ++ rest.take (n + 1 - bs.length) := by
                rw [List.take_append, List.take_of_length_le hlen]
              have hdrop : (bs ++ rest).drop (n + 1) = rest.drop (n + 1 - bs.length) := by
                rw [List.drop_append, List.drop_of_length_le hlen, List.nil_append]
              have hall := hlong (by rw [List.length_append]; omega)
              rw [htake, hdrop] at hall
              exact hall
            · intro hrest
              exact hshort (by rw [List.length_append]; omega)

lemma wp_recvAll {n : ℕ} {Q : Option (Option (List β)) → List β → List β → Prop}
    (hF : ¬ F.recv) (hlong : n ≤ S.length → Q (some (some (S.take n))) (S.drop n) [])
    (hshort : S.length < n → Q none [] []) : wp F (recvAll n) S Q :=
  wp_recvLoop hF le_rfl hlong hshort

/-- There is always a way to go on. -/
lemma wp_exists (h : wp F p S Q) : ∃ r rest out, Q r rest out := by
  induction p generalizing S Q with
  | done r => exact ⟨_, _, _, h⟩
  | send data k ih =>
      obtain ⟨r, rest, out, hr⟩ := ih _ h.1
      exact ⟨r, rest, _, hr⟩
  | recv len k ih =>
      by_cases hwait : S = [] ∨ len = 0
      · exact ⟨_, _, _, h.1 hwait⟩
      · push Not at hwait
        obtain ⟨b, rest, rfl⟩ := List.exists_cons_of_ne_nil hwait.1
        exact ih _ (h.2.2 [b] rest rfl (by simp) (Nat.one_le_iff_ne_zero.mpr hwait.2))
  | alloc k ih => exact ih _ h.1

/-- The program can end with this result, on some input and with whatever faults. -/
def CanEnd (p : Prog β ρ) (r : ρ) : Prop := ∃ F S, ¬ wp F p S fun r' _ _ => r' ≠ some r

/-- Whatever the program ends with has the property. -/
def Every (p : Prog β ρ) (P : ρ → Prop) : Prop :=
  ∀ F S, wp F p S fun r' _ _ => ∀ r, r' = some r → P r

lemma Every.of_canEnd {P : ρ → Prop} {r : ρ} (h : Every p P) (hr : CanEnd p r) : P r := by
  obtain ⟨F, S, hno⟩ := hr
  by_contra hP
  refine hno (wp_mono (h F S) ?_)
  rintro _ _ _ hall rfl
  exact hP (hall r rfl)

lemma every_done {P : ρ → Prop} {r : ρ} (h : P r) : Every (β := β) (done r) P := by
  rintro F S r' hr
  obtain rfl := Option.some.inj hr
  exact h

lemma every_bind {f : ρ → Prog β σ} {P : σ → Prop} (h : ∀ r, Every (f r) P) :
    Every (p.bind f) P := by
  intro F S
  apply wp_bind
  refine wp_mono (wp_true _ _ _) ?_
  rintro (_ | r) rest out -
  · rintro r' hr
    cases hr
  · exact h r F rest

/-- On the input `S` the program sends `out` and ends with the result, or waits for
more, with nothing left over. -/
def Ends (F : Faults) (p : Prog β ρ) (S : List β) (result : Option ρ) (out : List β) : Prop :=
  wp F p S fun r rest out' => r = result ∧ rest = [] ∧ out' = out

/-- The end is determined by the input. -/
lemma Ends.unique {result result' : Option ρ} {out out' : List β} (h : Ends F p S result out)
    (h' : Ends F p S result' out') : result = result' ∧ out = out' := by
  obtain ⟨r, rest, sent, ⟨hr, -, hout⟩, hr', -, hout'⟩ := wp_exists (wp_and h h')
  exact ⟨hr.symm.trans hr', hout.symm.trans hout'⟩

/-- With the input `S`, and perhaps more, the program sends at least `out`. -/
def Emits (F : Faults) (p : Prog β ρ) (S out : List β) : Prop :=
  ∀ X, wp F p (S ++ X) fun _ _ out' => out <+: out'

/-! ### One call -/

/-- What a call that returns has sent or received. -/
inductive Act (β : Type)
  | sent (data : List β)
  | got (data : List β)

/-- A program makes one call. -/
inductive Step (F : Faults) : Prog β ρ → Act β → Prog β ρ → Prop
  | send {data k} : Step F (.send data k) (.sent data) (k data.length)
  | sendFails {data k} (hF : F.send) : Step F (.send data k) (.sent []) (k (-1))
  | sendShort {data k n} (hF : F.send) (hn : n < data.length) :
      Step F (.send data k) (.sent (data.take n)) (k n)
  | recv {len k bs} (hne : bs ≠ []) (hlen : bs.length ≤ len) :
      Step F (.recv len k) (.got bs) (k (some bs))
  | recvFails {len k} (hF : F.recv) : Step F (.recv len k) (.sent []) (k none)
  | alloc {k} : Step F (.alloc k) (.sent []) (k true)
  | allocFails {k} (hF : F.alloc) : Step F (.alloc k) (.sent []) (k false)

variable {q : Prog β ρ} {data bs rest out : List β} {result : Option ρ}

lemma wp_sent (h : wp F p S Q) (hstep : Step F p (.sent data) q) :
    wp F q S fun r rest out => Q r rest (data ++ out) := by
  cases hstep with
  | send => exact h.1
  | sendFails hF => exact (h.2 hF).1
  | sendShort hF hn => exact (h.2 hF).2 _ hn
  | recvFails hF => exact h.2.1 hF
  | alloc => exact h.1
  | allocFails hF => exact h.2 hF

lemma wp_got (h : wp F p (bs ++ rest) Q) (hstep : Step F p (.got bs) q) : wp F q rest Q := by
  cases hstep with
  | recv hne hlen => exact h.2.2 bs rest rfl hne hlen

/-- What was sent was promised, and the rest of the promise stands. -/
lemma Ends.sent (h : Ends F p S result out) (hstep : Step F p (.sent data) q) :
    ∃ out', out = data ++ out' ∧ Ends F q S result out' := by
  have hwp := wp_sent h hstep
  obtain ⟨r, rest, out', -, -, hout⟩ := wp_exists hwp
  refine ⟨out', hout.symm, wp_mono hwp ?_⟩
  rintro r rest out'' ⟨hr, hrest, hout'⟩
  exact ⟨hr, hrest, List.append_cancel_left (hout'.trans hout.symm)⟩

/-- What is left of the promise `out` once `data` is sent. -/
lemma Emits.sent (h : Emits F p S out) (hstep : Step F p (.sent data) q) :
    out <+: data ++ out.drop data.length ∧ Emits F q S (out.drop data.length) := by
  constructor
  · obtain ⟨-, -, out', hout⟩ := wp_exists (wp_sent (h []) hstep)
    rcases Nat.le_total out.length data.length with hle | hle
    · have hpre : out <+: data := List.prefix_of_prefix_length_le hout (List.prefix_append _ _) hle
      exact hpre.trans (List.prefix_append _ _)
    · have hpre : data <+: out := List.prefix_of_prefix_length_le (List.prefix_append _ _) hout hle
      obtain ⟨out'', rfl⟩ := hpre
      rw [List.drop_left]
  · intro X
    refine wp_mono (wp_sent (h X) hstep) fun _ _ out' hout => ?_
    have := hout.drop data.length
    rwa [List.drop_left] at this

lemma Emits.got (h : Emits F p (bs ++ S) out) (hstep : Step F p (.got bs) q) : Emits F q S out := by
  intro X
  have hX := h X
  rw [List.append_assoc] at hX
  exact wp_got hX hstep

lemma Emits.mono {S' : List β} (h : Emits F p S out) (hS : S <+: S') : Emits F p S' out := by
  obtain ⟨Y, rfl⟩ := hS
  intro X
  rw [List.append_assoc]
  exact h _

/-- What the first program sends, the sequence sends. -/
lemma Emits.bind {p : Prog β ρ} {f : ρ → Prog β σ} (h : Emits F p S out) :
    Emits F (p.bind f) S out := by
  intro X
  apply wp_bind
  refine wp_mono (h X) ?_
  rintro (_ | r) rest out' hpre
  · exact hpre
  · exact wp_mono (wp_true _ _ _) fun _ _ more _ => hpre.trans (List.prefix_append _ _)

/-- A program that makes no call without more input. -/
def Waits (p : Prog β ρ) (S : List β) : Prop :=
  match p with
  | .done _ => True
  | .recv len _ => S = [] ∨ len = 0
  | _ => False

lemma Emits.eq_nil (h : Emits F p S out) (hwait : Waits p S) : out = [] := by
  have hS := h []
  rw [List.append_nil] at hS
  cases p with
  | done r => exact List.prefix_nil.mp hS
  | recv len k => exact List.prefix_nil.mp (hS.1 hwait)
  | send => cases hwait
  | alloc => cases hwait

/-! ### Two programs -/

/-- Two programs and the symbols on their way between them. -/
structure Net (β ρ σ : Type) where
  client : Prog β ρ
  server : Prog β σ
  up : List β
  down : List β

/-- The side that makes a call. -/
inductive Side
  | client
  | server

namespace Net

/-- One side makes a call. -/
inductive Step (F : Faults) : Net β ρ σ → Side → Net β ρ σ → Prop
  | clientSent {c c' s up down data} (h : Dialogue.Step F c (.sent data) c') :
      Step F ⟨c, s, up, down⟩ .client ⟨c', s, up ++ data, down⟩
  | clientGot {c c' s up down bs} (h : Dialogue.Step F c (.got bs) c') :
      Step F ⟨c, s, up, bs ++ down⟩ .client ⟨c', s, up, down⟩
  | serverSent {c s s' up down data} (h : Dialogue.Step F s (.sent data) s') :
      Step F ⟨c, s, up, down⟩ .server ⟨c, s', up, down ++ data⟩
  | serverGot {c s s' up down bs} (h : Dialogue.Step F s (.got bs) s') :
      Step F ⟨c, s, bs ++ up, down⟩ .server ⟨c, s', up, down⟩

/-- Before the first call. -/
def start (c : Prog β ρ) (s : Prog β σ) : Net β ρ σ := ⟨c, s, [], []⟩

/-- No side can make a call. -/
def Stuck (F : Faults) (n : Net β ρ σ) : Prop := ∀ side n', ¬ Step F n side n'

/-- The sides can send `U` and `D`, each part of them on the parts before it. -/
inductive Caused (F : Faults) (c : Prog β ρ) (s : Prog β σ) (up down : List β) :
    List β → List β → Prop
  | nil : Caused F c s up down [] []
  | client {U D U'} (h : Caused F c s up down U D) (hc : Emits F c (down ++ D) U') :
      Caused F c s up down U' D
  | server {U D D'} (h : Caused F c s up down U D) (hs : Emits F s (up ++ U) D') :
      Caused F c s up down U D'

variable {c c' : Prog β ρ} {s : Prog β σ} {up down U D : List β}

lemma Caused.swap (h : Caused F c s up down U D) : Caused F s c down up D U := by
  induction h with
  | nil => exact .nil
  | client _ hc ih => exact .server ih hc
  | server _ hs ih => exact .client ih hs

/-- The rest of what can be caused once the client has sent `data`. -/
lemma Caused.clientSent (h : Caused F c s up down U D)
    (hstep : Dialogue.Step F c (.sent data) c') :
    U <+: data ++ U.drop data.length ∧
      Caused F c' s (up ++ data) down (U.drop data.length) D := by
  induction h with
  | nil =>
      refine ⟨List.nil_prefix, ?_⟩
      rw [List.drop_nil]
      exact .nil
  | client _ hc ih => exact ⟨(hc.sent hstep).1, .client ih.2 (hc.sent hstep).2⟩
  | server _ hs ih =>
      refine ⟨ih.1, .server ih.2 (hs.mono ?_)⟩
      rw [List.append_assoc]
      exact (List.prefix_append_right_inj up).mpr ih.1

lemma Caused.clientGot (h : Caused F c s up (bs ++ down) U D)
    (hstep : Dialogue.Step F c (.got bs) c') : Caused F c' s up down U D := by
  induction h with
  | nil => exact .nil
  | client _ hc ih =>
      rw [List.append_assoc] at hc
      exact .client ih (hc.got hstep)
  | server _ hs ih => exact .server ih hs

/-- Nothing is caused when both sides wait. -/
lemma Caused.eq_nil (h : Caused F c s up down U D) (hc : Waits c down) (hs : Waits s up) :
    U = [] ∧ D = [] := by
  induction h with
  | nil => exact ⟨rfl, rfl⟩
  | client _ hemit ih =>
      rw [ih.2, List.append_nil] at hemit
      exact ⟨hemit.eq_nil hc, ih.2⟩
  | server _ hemit ih =>
      rw [ih.1, List.append_nil] at hemit
      exact ⟨ih.1, hemit.eq_nil hs⟩

/-- Each side ends as it should on what is on its way and what the other side has yet
to send, and the two can get there. -/
def Ready (F : Faults) (rc : Option ρ) (rs : Option σ) (n : Net β ρ σ) : Prop :=
  ∃ U D, Ends F n.client (n.down ++ D) rc U ∧ Ends F n.server (n.up ++ U) rs D ∧
    Caused F n.client n.server n.up n.down U D

variable {rc : Option ρ} {rs : Option σ} {n n' : Net β ρ σ} {side : Side}

/-- The net seen from the other side. -/
def swap (n : Net β ρ σ) : Net β σ ρ := ⟨n.server, n.client, n.down, n.up⟩

lemma Ready.swap (h : Ready F rc rs n) : Ready F rs rc n.swap := by
  obtain ⟨U, D, hc, hs, hcaused⟩ := h
  exact ⟨D, U, hs, hc, hcaused.swap⟩

lemma Ready.clientSent {s : Prog β σ} (h : Ready F rc rs ⟨c, s, up, down⟩)
    (hstep : Dialogue.Step F c (.sent data) c') : Ready F rc rs ⟨c', s, up ++ data, down⟩ := by
  obtain ⟨U, D, hc, hs, hcaused⟩ := h
  obtain ⟨U', rfl, hc'⟩ := hc.sent hstep
  refine ⟨U', D, hc', ?_, ?_⟩
  · have hs' : Ends F s (up ++ (data ++ U')) rs D := hs
    rwa [← List.append_assoc] at hs'
  · have hcaused' := (hcaused.clientSent hstep).2
    rwa [List.drop_left] at hcaused'

lemma Ready.clientGot {s : Prog β σ} (h : Ready F rc rs ⟨c, s, up, bs ++ down⟩)
    (hstep : Dialogue.Step F c (.got bs) c') : Ready F rc rs ⟨c', s, up, down⟩ := by
  obtain ⟨U, D, hc, hs, hcaused⟩ := h
  refine ⟨U, D, ?_, hs, hcaused.clientGot hstep⟩
  have hc' : Ends F c (bs ++ down ++ D) rc U := hc
  rw [List.append_assoc] at hc'
  exact wp_got hc' hstep

/-- **A step keeps both sides on their way.** -/
lemma Ready.step (h : Ready F rc rs n) (hstep : Step F n side n') : Ready F rc rs n' := by
  cases hstep with
  | clientSent hc => exact h.clientSent hc
  | clientGot hc => exact h.clientGot hc
  | serverSent hs => exact (h.swap.clientSent hs).swap
  | serverGot hs => exact (h.swap.clientGot hs).swap

lemma Stuck.waits_client (h : Stuck F n) : Waits n.client n.down := by
  obtain ⟨c, s, up, down⟩ := n
  cases c with
  | done r => trivial
  | send data k => exact absurd (.clientSent .send) (h _ _)
  | recv len k =>
      by_contra hwait
      simp only [Waits, not_or] at hwait
      obtain ⟨b, rest, rfl⟩ := List.exists_cons_of_ne_nil hwait.1
      have hone : Dialogue.Step F (Prog.recv len k) (.got [b]) (k (some [b])) :=
        .recv (by simp) (Nat.one_le_iff_ne_zero.mpr hwait.2)
      have hstep : Step F ⟨Prog.recv len k, s, up, [b] ++ rest⟩ .client ⟨k (some [b]), s, up, rest⟩ :=
        .clientGot hone
      exact h _ _ hstep
  | alloc k => exact absurd (.clientSent .alloc) (h _ _)

lemma Stuck.swap (h : Stuck F n) : Stuck F n.swap := by
  obtain ⟨c, s, up, down⟩ := n
  rintro side n' hstep
  generalize hn : (⟨c, s, up, down⟩ : Net β ρ σ).swap = m at hstep
  cases hstep with
  | clientSent hs =>
      cases hn
      exact h _ _ (.serverSent hs)
  | clientGot hs =>
      cases hn
      exact h _ _ (.serverGot hs)
  | serverSent hc =>
      cases hn
      exact h _ _ (.clientSent hc)
  | serverGot hc =>
      cases hn
      exact h _ _ (.clientGot hc)

/-- A side that is done has the result it should have. -/
lemma Ready.client_done (h : Ready F rc rs n) {r : ρ} (hdone : n.client = .done r) :
    rc = some r := by
  obtain ⟨U, D, hc, -, -⟩ := h
  rw [hdone] at hc
  exact hc.1.symm

/-- A side that should end does. -/
lemma Ready.client_ends (h : Ready F rc rs n) (hstuck : Stuck F n) {r : ρ} (hr : rc = some r) :
    n.client = .done r := by
  obtain ⟨U, D, hc, -, hcaused⟩ := h
  have hwait := hstuck.waits_client
  obtain ⟨rfl, rfl⟩ := hcaused.eq_nil hwait hstuck.swap.waits_client
  rw [List.append_nil] at hc
  cases hclient : n.client with
  | done r' =>
      rw [hclient] at hc
      have hr' : some r' = rc := hc.1
      rw [hr] at hr'
      rw [Option.some.inj hr']
  | recv len k =>
      rw [hclient] at hc hwait
      have hnone : (none : Option ρ) = rc := (hc.1 hwait).1
      rw [hr] at hnone
      cases hnone
  | send data k =>
      rw [hclient] at hwait
      cases hwait
  | alloc k =>
      rw [hclient] at hwait
      cases hwait

/-- What both sides come to. -/
structure Outcome (F : Faults) (rc : Option ρ) (rs : Option σ) (n : Net β ρ σ) : Prop where
  client : ∀ r, n.client = .done r → rc = some r
  server : ∀ r, n.server = .done r → rs = some r
  client_ends : Stuck F n → ∀ r, rc = some r → n.client = .done r
  server_ends : Stuck F n → ∀ r, rs = some r → n.server = .done r

/-- **Histories decide.** If each side ends on what the other sends, and the two can get
there, then along every run a side that is done has the result it should have, and
when no call is left each side that should end is done. -/
theorem ends {c : Prog β ρ} {s : Prog β σ} (hc : Ends F c D rc U) (hs : Ends F s U rs D)
    (hcaused : Caused F c s [] [] U D) {sides : List Side} {n : Net β ρ σ}
    (hrun : Exec.Runs (Step F) (start c s) sides n) : Outcome F rc rs n := by
  have h : Ready F rc rs n :=
    hrun.invariant (Ready F rc rs) (fun _ _ _ hready hstep => hready.step hstep)
      ⟨U, D, hc, hs, hcaused⟩
  exact ⟨fun r hr => h.client_done hr, fun r hr => h.swap.client_done hr,
    fun hstuck r hr => h.client_ends hstuck hr,
    fun hstuck r hr => h.swap.client_ends hstuck.swap hr⟩

end Net

/-! ### Runs are finite -/

/-- A program makes finitely many calls. -/
lemma acc_step (p : Prog β ρ) : Acc (fun q p => ∃ a, Step F p a q) p := by
  induction p with
  | done r =>
      refine ⟨_, ?_⟩
      rintro q ⟨a, h⟩
      cases h
  | send data k ih =>
      refine ⟨_, ?_⟩
      rintro q ⟨a, h⟩
      cases h <;> exact ih _
  | recv len k ih =>
      refine ⟨_, ?_⟩
      rintro q ⟨a, h⟩
      cases h <;> exact ih _
  | alloc k ih =>
      refine ⟨_, ?_⟩
      rintro q ⟨a, h⟩
      cases h <;> exact ih _

/-- **Every run stops**, whatever the order of the calls. -/
theorem Net.step_wellFounded :
    WellFounded fun (n' n : Net β ρ σ) => ∃ side, Net.Step F n side n' := by
  have hgame := (WellFounded.intro (acc_step (β := β) (ρ := ρ) (F := F))).prod_gameAdd
    (WellFounded.intro (acc_step (β := β) (ρ := σ) (F := F)))
  refine Subrelation.wf ?_ (InvImage.wf (fun n : Net β ρ σ => (n.client, n.server)) hgame)
  rintro n' n ⟨side, h⟩
  cases h with
  | clientSent hc => exact .fst ⟨_, hc⟩
  | clientGot hc => exact .fst ⟨_, hc⟩
  | serverSent hs => exact .snd ⟨_, hs⟩
  | serverGot hs => exact .snd ⟨_, hs⟩

/-- There is a run to the end. -/
lemma Net.exists_stuck (F : Faults) (n : Net β ρ σ) :
    ∃ sides n', Exec.Runs (Net.Step F) n sides n' ∧ Net.Stuck F n' := by
  induction n using Net.step_wellFounded (F := F).induction with
  | _ n ih =>
      by_cases hstuck : Net.Stuck F n
      · exact ⟨[], n, .nil, hstuck⟩
      · simp only [Net.Stuck, not_forall, not_not] at hstuck
        obtain ⟨side, n₁, hstep⟩ := hstuck
        obtain ⟨sides, n', hrun, hend⟩ := ih n₁ ⟨side, hstep⟩
        exact ⟨side :: sides, n', .cons hstep hrun, hend⟩

/-! ### Schedules that can be evaluated -/

/-- The next call of a program, where `recv` gets all that it asks for and an allocation
is answered by `ok`: the program, what it leaves of its input, and what it sends. -/
def Prog.next (ok : Bool) (S : List β) : Prog β ρ → Option (Prog β ρ × List β × List β)
  | .done _ => none
  | .send data k => some (k data.length, S, data)
  | .recv len k =>
      if S.isEmpty ∨ len = 0 then none else some (k (some (S.take len)), S.drop len, [])
  | .alloc k => some (k ok, S, [])

/-- The result of a program that is done. -/
def Prog.result? : Prog β ρ → Option ρ
  | .done r => some r
  | _ => none

lemma Prog.eq_done {p : Prog β ρ} {r : ρ} (h : p.result? = some r) : p = .done r := by
  cases p with
  | done r' =>
      have hr : some r' = some r := h
      rw [Option.some.inj hr]
  | send => cases h
  | recv => cases h
  | alloc => cases h

/-- The next call of a side. -/
def Net.move (n : Net β ρ σ) : Side × Bool → Option (Net β ρ σ)
  | (.client, ok) => (n.client.next ok n.down).map fun (c, rest, sent) =>
      { n with client := c, up := n.up ++ sent, down := rest }
  | (.server, ok) => (n.server.next ok n.up).map fun (s, rest, sent) =>
      { n with server := s, up := rest, down := n.down ++ sent }

/-- The next call sends, or takes the front of the input. -/
lemma Prog.next_step {p q : Prog β ρ} {S rest out : List β} {ok : Bool}
    (hok : ok = true ∨ F.alloc) (h : p.next ok S = some (q, rest, out)) :
    rest = S ∧ Step F p (.sent out) q ∨
      out = [] ∧ ∃ bs, S = bs ++ rest ∧ Step F p (.got bs) q := by
  cases p with
  | done r => cases h
  | send data k =>
      obtain ⟨rfl, rfl, rfl⟩ : k data.length = q ∧ S = rest ∧ data = out := by
        simpa [Prog.next] using h
      exact .inl ⟨rfl, .send⟩
  | recv len k =>
      simp only [Prog.next] at h
      split_ifs at h with hwait
      push Not at hwait
      obtain ⟨rfl, rfl, rfl⟩ : k (some (S.take len)) = q ∧ S.drop len = rest ∧ [] = out := by
        simpa using h
      refine .inr ⟨rfl, S.take len, (List.take_append_drop len S).symm, .recv ?_ ?_⟩
      · intro hnil
        rcases List.take_eq_nil_iff.mp hnil with hzero | rfl
        · exact hwait.2 hzero
        · exact hwait.1 rfl
      · rw [List.length_take]
        exact Nat.min_le_left _ _
  | alloc k =>
      obtain ⟨rfl, rfl, rfl⟩ : k ok = q ∧ S = rest ∧ [] = out := by
        simpa [Prog.next] using h
      cases ok with
      | true => exact .inl ⟨rfl, .alloc⟩
      | false => exact .inl ⟨rfl, .allocFails (hok.resolve_left (by simp))⟩

lemma Net.move_step {n n' : Net β ρ σ} {m : Side × Bool} (hok : m.2 = true ∨ F.alloc)
    (h : n.move m = some n') : Net.Step F n m.1 n' := by
  obtain ⟨c, s, up, down⟩ := n
  obtain ⟨side, ok⟩ := m
  cases side with
  | client =>
      obtain ⟨⟨c', rest, sent⟩, hnext, rfl⟩ := Option.map_eq_some_iff.mp h
      rcases Prog.next_step hok hnext with ⟨rfl, hstep⟩ | ⟨rfl, bs, rfl, hstep⟩
      · exact .clientSent hstep
      · simp only [List.append_nil]
        exact .clientGot hstep
  | server =>
      obtain ⟨⟨s', rest, sent⟩, hnext, rfl⟩ := Option.map_eq_some_iff.mp h
      rcases Prog.next_step hok hnext with ⟨rfl, hstep⟩ | ⟨rfl, bs, rfl, hstep⟩
      · exact .serverSent hstep
      · simp only [List.append_nil]
        exact .serverGot hstep

/-- An evaluated schedule is a run. -/
lemma Net.runs_of_moves {n n' : Net β ρ σ} {ms : List (Side × Bool)}
    (hok : ∀ m ∈ ms, m.2 = true ∨ F.alloc)
    (h : Exec.runFun (fun _ _ => true) Net.move n ms = some n') :
    Exec.Runs (Net.Step F) n (ms.map Prod.fst) n' := by
  induction ms generalizing n with
  | nil =>
      obtain rfl : n = n' := by simpa [Exec.runFun] using h
      exact .nil
  | cons m ms ih =>
      rw [Exec.runFun, if_pos rfl] at h
      obtain ⟨n₁, hmove, hrest⟩ := Option.bind_eq_some_iff.mp h
      rw [List.forall_mem_cons] at hok
      exact .cons (Net.move_step hok.1 hmove) (ih hok.2 hrest)

end Dialogue
