import Sel4Test.Lib.Exec
import Sel4Test.Lib.Ledger
import Sel4Test.Frontend.Pool

/-!
The data buffers of message segments: where `front/src/session.c`,
`front/src/frontend_api.c` and `front/src/session_pool.c` allocate them, and the three
places that release them.

A segment is queued by `frontend_sess_send` and by the handler of DATA messages, both with
`sess_msg_seg_alloc`. It is released when it is transmitted (`sess_msg_seg_free`), when it has
been read (`frontend_sess_recv`), and with its session (`sess_msg_queue_free_all`). The ledger
of `malloc` is part of the state. Contents of buffers and the blocks of the segment
structures are left out; `offset` is read by no function.

* `Balanced`: the buffers of the queued segments are the live blocks, each once.
* `Keeps`: the calls after which that is still so.
* `buffers_balanced`: in a run of such calls every state is balanced, and a further call
  leads to a balanced state exactly if it is one of them.
-/

namespace Frontend.Buffers

open Exec
open Ledger hiding free
open Function (update update_self update_of_ne)

/-! ### Segments -/

/-- `SessMsgSeg` with the type `SESS_MSG_SEG_DYNAMIC_ALLOC`. The field `base` is not in the source:
it is what `malloc` returned for the buffer. -/
structure Seg where
  data : Option ℕ
  len : ℕ
  base : ℕ
  deriving DecidableEq

/-- The message queues of the sessions, where they are initialised, and the ledger. -/
structure State where
  msg : SessPtr → Dir → Option (List Seg)
  live : ℕ → Option ℕ

/-- `sess_msg_seg_free`. -/
def sessMsgSegFree (seg : Seg) (live : ℕ → Option ℕ) : Option (ℕ → Option ℕ) :=
  if seg.data = none then some live else Ledger.free live seg.data

/-- `sess_msg_queue_free_all`. -/
def sessMsgQueueFreeAll (segs : List Seg) (live : ℕ → Option ℕ) : Option (ℕ → Option ℕ) :=
  segs.foldlM (fun live seg => Ledger.free live seg.data) live

/-- The loop of `frontend_sess_recv` with the space that is left. -/
def recvLoop : List Seg → ℕ → (ℕ → Option ℕ) → Option (List Seg × (ℕ → Option ℕ))
  | segs, 0, live => some (segs, live)
  | [], _ + 1, live => some ([], live)
  | seg :: rest, space + 1, live =>
      if seg.len ≤ space + 1 then do
        let seg' := { seg with data := none }
        let live ← Ledger.free live seg'.data
        recvLoop rest (space + 1 - seg.len) live
      else
        let seg := { seg with data := seg.data.map (· + (space + 1)), len := seg.len - (space + 1) }
        some (seg :: rest, live)

/-- The loop of `frontend_high_speed_data_process_f2b`; `ans` are the return codes of
`build_proxy_general_message`. -/
def dataProcessF2b (ans : ℕ → ProcessRet) :
    ℕ → List Seg → (ℕ → Option ℕ) → Option (List Seg × (ℕ → Option ℕ))
  | _, [], live => some ([], live)
  | i, seg :: rest, live =>
      if ans i = .ok then do
        let live ← sessMsgSegFree seg live
        dataProcessF2b ans (i + 1) rest live
      else some (seg :: rest, live)

/-- The calls. -/
inductive Call
  /-- `create_sess_step1` initialises the queues of a session. -/
  | sessConnect (p : SessPtr)
  /-- A segment of `len` bytes is allocated at `base` and queued: one round of the loop of
  `frontend_sess_send`, or a DATA message. -/
  | segQueue (p : SessPtr) (d : Dir) (base len : ℕ)
  /-- `frontend_sess_recv` with a buffer of `size` bytes. -/
  | sessRecv (p : SessPtr) (size : ℕ)
  /-- `frontend_high_speed_data_process_f2b`. -/
  | sessTransmit (p : SessPtr) (ans : ℕ → ProcessRet)
  /-- `frontend_high_speed_delete_sess`, which also ends a close. -/
  | deleteSess (p : SessPtr)

namespace State

variable (s : State)

/-- A queue is replaced. -/
def setMsg (p : SessPtr) (d : Dir) (segs : List Seg) (live : ℕ → Option ℕ) : State where
  msg := update s.msg p (update (s.msg p) d (some segs))
  live := live

/-- **One call.** -/
def step : Call → Option State
  | .sessConnect p => some { s with msg := update s.msg p fun _ => some [] }
  | .segQueue p d base len => do
      let segs ← s.msg p d
      return s.setMsg p d (segs ++ [⟨some base, len, base⟩]) (update s.live base (some len))
  | .sessRecv p size =>
      if size = 0 then some s
      else do
        let segs ← s.msg p .b2f
        let (segs, live) ← recvLoop segs size s.live
        return s.setMsg p .b2f segs live
  | .sessTransmit p ans => do
      let segs ← s.msg p .f2b
      let (segs, live) ← dataProcessF2b ans 0 segs s.live
      return s.setMsg p .f2b segs live
  | .deleteSess p => do
      let live ← sessMsgQueueFreeAll (← s.msg p .f2b) s.live
      let live ← sessMsgQueueFreeAll (← s.msg p .b2f) live
      return { msg := update s.msg p fun _ => none, live := live }

/-- The bases of the queued segments. -/
def bases (i : SessPtr × Dir) : List ℕ := ((s.msg i.1 i.2).getD []).map Seg.base

/-- `malloc` returns a block that overlaps no live one, and the queues that a call uses are
initialised. -/
def Admits : Call → Prop
  | .sessConnect _ => True
  | .segQueue p d base len => s.msg p d ≠ none ∧ Fresh s.live base len
  | .sessRecv p _ => s.msg p .b2f ≠ none
  | .sessTransmit p _ => s.msg p .f2b ≠ none
  | .deleteSess p => ∀ d, s.msg p d ≠ none

/-- **The buffers of the queued segments are the live blocks, each once.** -/
def Balanced : Prop := Owned s.live s.bases

/-- The calls that keep this: a session whose queues hold segments is not connected again, a
read ends inside the first segment, and no segment of a deleted session is read in part. -/
def Keeps : Call → Prop
  | .sessConnect p => ∀ d segs, s.msg p d = some segs → segs = []
  | .segQueue _ _ _ _ => True
  | .sessRecv p size =>
      ∀ seg rest, s.msg p .b2f = some (seg :: rest) → size = 0 ∨ size < seg.len
  | .sessTransmit _ _ => True
  | .deleteSess p => ∀ d segs, s.msg p d = some segs → ∀ seg ∈ segs, seg.data = some seg.base

end State

/-- No session yet, and no block. -/
def initState : State := ⟨fun _ _ => none, fun _ => none⟩

/-! ### The invariant -/

/-- A balanced state in which `data` points into the buffer, at what is not read yet, and only
received segments are read. -/
structure Inv (s : State) : Prop where
  balanced : s.Balanced
  apart : Apart s.live
  inside : ∀ p d segs, s.msg p d = some segs → ∀ seg ∈ segs, ∃ k,
    seg.data = some (seg.base + k) ∧ s.live seg.base = some (k + seg.len) ∧
      (k ≠ 0 → 0 < seg.len ∧ d = .b2f)

variable {s s' : State} {p : SessPtr} {d : Dir} {segs segs' rest : List Seg} {seg : Seg}
  {live live' : ℕ → Option ℕ} {ans : ℕ → ProcessRet} {i size : ℕ}

lemma msg_setMsg : (s.setMsg p d segs live).msg =
    update s.msg p (update (s.msg p) d (some segs)) := rfl

lemma live_setMsg : (s.setMsg p d segs live).live = live := rfl

lemma bases_setMsg : (s.setMsg p d segs live).bases =
    update s.bases (p, d) (segs.map Seg.base) := by
  funext j
  obtain ⟨q, d'⟩ := j
  by_cases hq : q = p
  · subst hq
    by_cases hd : d' = d
    · subst hd
      simp [State.bases, State.setMsg]
    · have hne : (q, d') ≠ (q, d) := fun h => hd (Prod.mk.inj h).2
      simp [State.bases, State.setMsg, update_of_ne hd, update_of_ne hne]
  · have hne : (q, d') ≠ (p, d) := fun h => hq (Prod.mk.inj h).1
    simp [State.bases, State.setMsg, update_of_ne hq, update_of_ne hne]

lemma bases_of_msg (h : s.msg p d = some segs) : s.bases (p, d) = segs.map Seg.base := by
  simp [State.bases, h]

lemma bases_reinit {f : Dir → Option (List Seg)} (hf : ∀ d, (f d).getD [] = []) :
    State.bases { s with msg := update s.msg p f, live := live } =
      update (update s.bases (p, .f2b) []) (p, .b2f) [] := by
  funext j
  obtain ⟨q, d'⟩ := j
  by_cases hq : q = p
  · subst hq
    cases d' <;> simp [State.bases, hf]
  · have hne : ∀ d, (q, d') ≠ (p, d) := fun d h => hq (Prod.mk.inj h).1
    simp [State.bases, update_of_ne hq, update_of_ne (hne _)]

/-- The first segment of a queue is released at its base. -/
lemma Owned.freeHead {L : SessPtr × Dir → List ℕ} {j : SessPtr × Dir} (h : Owned live L)
    (hL : L j = (seg :: rest).map Seg.base) (hdata : seg.data = some seg.base) :
    Ledger.free live seg.data = some (update live seg.base none) ∧
      Owned (update live seg.base none) (update L j (rest.map Seg.base)) := by
  have hmem : seg.base ∈ L j := by
    rw [hL]
    exact List.mem_cons_self
  rw [hdata]
  exact ⟨Ledger.free_base (h.live_of_mem hmem), h.release hL⟩

/-- **A queue is freed**, if no segment of it is read in part. -/
lemma Owned.freeAll {L : SessPtr × Dir → List ℕ} {j : SessPtr × Dir} (h : Owned live L)
    (hL : L j = segs.map Seg.base) (hdata : ∀ seg ∈ segs, seg.data = some seg.base) :
    ∃ live', sessMsgQueueFreeAll segs live = some live' ∧ Owned live' (update L j []) ∧
      (Apart live → Apart live') ∧ ∀ b, b ∉ L j → live' b = live b := by
  induction segs generalizing live L with
  | nil =>
      refine ⟨live, rfl, ?_, id, fun _ _ => rfl⟩
      have hsame : update L j [] = L := by
        rw [← show L j = [] from hL, Function.update_eq_self]
      rwa [hsame]
  | cons seg rest ih =>
      obtain ⟨hfree, howned⟩ := Owned.freeHead h hL (hdata seg List.mem_cons_self)
      obtain ⟨live', hrest, hall, hapart, hother⟩ := ih howned (update_self ..) fun x hx =>
        hdata x (List.mem_cons_of_mem _ hx)
      rw [Function.update_idem] at hall
      refine ⟨live', ?_, hall, fun hap => hapart (hap.release _), fun b hb => ?_⟩
      · rw [sessMsgQueueFreeAll, List.foldlM_cons, hfree]
        exact hrest
      · rw [hL, List.map_cons, List.mem_cons, not_or] at hb
        rw [hother b (by rw [update_self]; exact hb.2), update_of_ne hb.1]

/-- A queue that was freed had no segment that is read in part. -/
lemma data_of_freeAll (h : sessMsgQueueFreeAll segs live = some live') :
    (∀ seg ∈ segs, ∀ b, seg.data = some b → live b ≠ none) ∧
      ∀ b, live' b ≠ none → live b ≠ none := by
  induction segs generalizing live with
  | nil =>
      obtain rfl := Option.some.inj h
      exact ⟨by simp, fun _ => id⟩
  | cons seg rest ih =>
      rw [sessMsgQueueFreeAll, List.foldlM_cons] at h
      obtain ⟨live₁, hfree, hrest⟩ := Option.bind_eq_some_iff.mp h
      obtain ⟨hsegs, hle⟩ := ih hrest
      refine ⟨?_, fun b hb => Ledger.free_le hfree (hle b hb)⟩
      intro x hx b hb
      rcases List.mem_cons.mp hx with rfl | hx
      · rw [hb] at hfree
        exact Ledger.live_of_free hfree
      · exact Ledger.free_le hfree (hsegs x hx b hb)

/-- Transmission releases the segments from the front on. -/
lemma Owned.transmit {L : SessPtr × Dir → List ℕ} {j : SessPtr × Dir} (h : Owned live L)
    (hL : L j = segs.map Seg.base) (hdata : ∀ seg ∈ segs, seg.data = some seg.base) :
    ∃ rest live', dataProcessF2b ans i segs live = some (rest, live') ∧ rest <:+ segs ∧
      Owned live' (update L j (rest.map Seg.base)) ∧ (Apart live → Apart live') ∧
      ∀ b, (b ∉ L j ∨ b ∈ rest.map Seg.base) → live' b = live b := by
  induction segs generalizing live L i with
  | nil =>
      refine ⟨[], live, rfl, List.suffix_rfl, ?_, id, fun _ _ => rfl⟩
      have hsame : update L j [] = L := by
        rw [← show L j = [] from hL, Function.update_eq_self]
      rwa [List.map_nil, hsame]
  | cons seg rest ih =>
      rw [dataProcessF2b]
      by_cases hok : ans i = .ok
      · obtain ⟨hfree, howned⟩ := Owned.freeHead h hL (hdata seg List.mem_cons_self)
        obtain ⟨rest', live', hrest, hsuffix, hall, hapart, hother⟩ :=
          ih (i := i + 1) howned (update_self ..) fun x hx => hdata x (List.mem_cons_of_mem _ hx)
        rw [Function.update_idem] at hall
        have hset : seg.data ≠ none := by
          rw [hdata seg List.mem_cons_self]
          simp
        have hnodup := h.nodup j
        rw [hL, List.map_cons, List.nodup_cons] at hnodup
        refine ⟨rest', live', ?_, hsuffix.trans (List.suffix_cons ..), hall,
          fun hap => hapart (hap.release _), fun b hb => ?_⟩
        · rw [if_pos hok, sessMsgSegFree, if_neg hset, hfree]
          exact hrest
        · rw [hL, List.map_cons, List.mem_cons, not_or] at hb
          have hne : b ≠ seg.base := by
            rcases hb with hb | hb
            · exact hb.1
            · rintro rfl
              exact hnodup.1 ((hsuffix.map Seg.base).subset hb)
          rw [hother b (by rw [update_self]; exact hb.imp_left And.right), update_of_ne hne]
      · refine ⟨seg :: rest, live, if_neg hok, List.suffix_rfl, ?_, id, fun _ _ => rfl⟩
        rwa [← hL, Function.update_eq_self]

/-- A read that ends inside the first segment advances its pointer. -/
lemma recvLoop_inside (hsize : 0 < size) (hlen : size < seg.len) :
    recvLoop (seg :: rest) size live =
      some ({ seg with data := seg.data.map (· + size), len := seg.len - size } :: rest, live) := by
  obtain ⟨space, rfl⟩ : ∃ space, size = space + 1 := ⟨size - 1, by omega⟩
  rw [recvLoop, if_neg (by omega)]

/-- A read that takes the first segment leaves its buffer in the ledger. -/
lemma recvLoop_taken (hsize : 0 < size) (hlen : seg.len ≤ size) :
    recvLoop (seg :: rest) size live = recvLoop rest (size - seg.len) live := by
  obtain ⟨space, rfl⟩ : ∃ space, size = space + 1 := ⟨size - 1, by omega⟩
  rw [recvLoop, if_pos hlen]
  rfl

/-- A read never takes a buffer out of the ledger. -/
lemma recvLoop_live : ∃ rest, recvLoop segs size live = some (rest, live) ∧
    rest.map Seg.base <:+ segs.map Seg.base := by
  induction segs generalizing size with
  | nil => cases size <;> exact ⟨[], rfl, List.suffix_rfl⟩
  | cons seg rest ih =>
      cases size with
      | zero => exact ⟨seg :: rest, rfl, List.suffix_rfl⟩
      | succ space =>
          by_cases hlen : seg.len ≤ space + 1
          · obtain ⟨rest', hrest, hsuffix⟩ := @ih (space + 1 - seg.len)
            rw [recvLoop_taken (Nat.succ_pos _) hlen]
            exact ⟨rest', hrest, hsuffix.trans (List.suffix_cons ..)⟩
          · rw [recvLoop_inside (Nat.succ_pos _) (by omega)]
            exact ⟨_, rfl, List.suffix_rfl⟩

/-! ### One call -/

namespace Inv

lemma seg_inside (h : Inv s) (hmsg : s.msg p d = some segs) (hseg : seg ∈ segs) : ∃ k,
    seg.data = some (seg.base + k) ∧ s.live seg.base = some (k + seg.len) ∧
      (k ≠ 0 → 0 < seg.len ∧ d = .b2f) := h.inside p d segs hmsg seg hseg

/-- One queue changes, and the ledger only at its buffers. -/
lemma setMsg (h : Inv s) (howned : Owned live' (update s.bases (p, d) (segs'.map Seg.base)))
    (hapart : Apart live')
    (hinside : ∀ seg ∈ segs', ∃ k, seg.data = some (seg.base + k) ∧
      live' seg.base = some (k + seg.len) ∧ (k ≠ 0 → 0 < seg.len ∧ d = .b2f))
    (hother : ∀ b, b ∉ s.bases (p, d) → s.live b ≠ none → live' b = s.live b) :
    Inv (s.setMsg p d segs' live') where
  balanced := by
    rw [State.Balanced, bases_setMsg]
    exact howned
  apart := hapart
  inside := by
    intro q d' segs hmsg seg hseg
    by_cases hq : (q, d') = (p, d)
    · obtain ⟨rfl, rfl⟩ := Prod.mk.inj hq
      rw [msg_setMsg, update_self, update_self] at hmsg
      obtain rfl := Option.some.inj hmsg
      exact hinside seg hseg
    · have hmsg : s.msg q d' = some segs := by
        rw [msg_setMsg] at hmsg
        by_cases hqp : q = p
        · subst hqp
          have hd : d' ≠ d := fun h => hq (by rw [h])
          rwa [update_self, update_of_ne hd] at hmsg
        · rwa [update_of_ne hqp] at hmsg
      obtain ⟨k, hdata, hlive, hread⟩ := h.seg_inside hmsg hseg
      refine ⟨k, hdata, ?_, hread⟩
      have hmem : seg.base ∈ s.bases (q, d') := by
        rw [bases_of_msg hmsg]
        exact List.mem_map_of_mem hseg
      have hout : seg.base ∉ s.bases (p, d) := fun hin => hq (h.balanced.apart _ _ _ hmem hin)
      rw [live_setMsg, hother _ hout (h.balanced.live_of_mem hmem)]
      exact hlive

/-- A queue without a segment that is read in part. -/
lemma data_of_f2b (h : Inv s) (hmsg : s.msg p .f2b = some segs) (hseg : seg ∈ segs) :
    seg.data = some seg.base := by
  obtain ⟨k, hdata, -, hread⟩ := h.seg_inside hmsg hseg
  by_cases hk : k = 0
  · rw [hdata, hk, Nat.add_zero]
  · cases (hread hk).2

/-- A session is connected: its queues hold no segment. -/
lemma sessConnect (h : Inv s) (hkeeps : ∀ d segs, s.msg p d = some segs → segs = []) :
    Inv { s with msg := update s.msg p fun _ => some [] } := by
  have hnil : ∀ d, s.bases (p, d) = [] := by
    intro d
    rw [State.bases]
    cases hmsg : s.msg p d with
    | none => rfl
    | some segs => rw [hkeeps d segs hmsg]; rfl
  refine ⟨?_, h.apart, ?_⟩
  · have hsame : update (update s.bases (p, .f2b) []) (p, .b2f) [] = s.bases := by
      have hf2b : update s.bases (p, .f2b) [] = s.bases := by
        rw [← hnil .f2b, Function.update_eq_self]
      rw [hf2b, ← hnil .b2f, Function.update_eq_self]
    rw [State.Balanced, bases_reinit fun _ => rfl, hsame]
    exact h.balanced
  · intro q d segs hmsg seg hseg
    have hmsg : update s.msg p (fun _ => some []) q d = some segs := hmsg
    by_cases hq : q = p
    · subst hq
      rw [update_self] at hmsg
      obtain rfl := Option.some.inj hmsg
      cases hseg
    · rw [update_of_ne hq] at hmsg
      exact h.seg_inside hmsg hseg

/-- A segment is queued. -/
lemma segQueue (h : Inv s) {base len : ℕ} (hmsg : s.msg p d = some segs)
    (hfresh : Fresh s.live base len) :
    Inv (s.setMsg p d (segs ++ [⟨some base, len, base⟩]) (update s.live base (some len))) := by
  have hnew := hfresh.not_live
  refine h.setMsg ?_ (h.apart.alloc hfresh) ?_ ?_
  · have halloc := h.balanced.alloc (i := (p, d)) hnew len
    rw [bases_of_msg hmsg] at halloc
    simpa using halloc
  · intro seg hseg
    rcases List.mem_append.mp hseg with hseg | hseg
    · obtain ⟨k, hdata, hlive, hread⟩ := h.seg_inside hmsg hseg
      refine ⟨k, hdata, ?_, hread⟩
      rw [update_of_ne (by rintro heq; rw [heq, hnew] at hlive; cases hlive)]
      exact hlive
    · obtain rfl := List.mem_singleton.mp hseg
      exact ⟨0, rfl, by rw [update_self, Nat.zero_add], fun hk => absurd rfl hk⟩
  · rintro b - hlive
    rw [update_of_ne (by rintro rfl; exact hlive hnew)]

/-- A read ends inside the first segment, or finds none. -/
lemma sessRecv (h : Inv s) (hsize : size ≠ 0) (hmsg : s.msg p .b2f = some segs)
    (hkeeps : ∀ seg rest, segs = seg :: rest → size < seg.len) :
    ∃ segs', recvLoop segs size s.live = some (segs', s.live) ∧
      Inv (s.setMsg p .b2f segs' s.live) := by
  have hbases := bases_of_msg hmsg
  cases segs with
  | nil =>
      obtain ⟨space, rfl⟩ : ∃ space, size = space + 1 := ⟨size - 1, by omega⟩
      refine ⟨[], rfl, h.setMsg ?_ h.apart (by simp) fun _ _ _ => rfl⟩
      rw [← hbases, Function.update_eq_self]
      exact h.balanced
  | cons seg rest =>
      have hlen := hkeeps seg rest rfl
      refine ⟨_, recvLoop_inside (Nat.pos_of_ne_zero hsize) hlen,
        h.setMsg ?_ h.apart ?_ fun _ _ _ => rfl⟩
      · have hsame : update s.bases (p, .b2f) (seg.base :: rest.map Seg.base) = s.bases := by
          rw [← List.map_cons, ← hbases, Function.update_eq_self]
        rw [List.map_cons, hsame]
        exact h.balanced
      · intro x hx
        rcases List.mem_cons.mp hx with rfl | hx
        · obtain ⟨k, hdata, hlive, -⟩ := h.seg_inside hmsg List.mem_cons_self
          refine ⟨k + size, ?_, ?_, fun _ => ⟨by dsimp only; omega, rfl⟩⟩
          · rw [hdata, Option.map_some, Nat.add_assoc]
          · rw [hlive]
            congr 1
            dsimp only
            omega
        · exact h.seg_inside hmsg (List.mem_cons_of_mem _ hx)

/-- Transmission. -/
lemma sessTransmit (h : Inv s) (hmsg : s.msg p .f2b = some segs) (ans : ℕ → ProcessRet) :
    ∃ rest live', dataProcessF2b ans 0 segs s.live = some (rest, live') ∧
      Inv (s.setMsg p .f2b rest live') := by
  have hdata : ∀ seg ∈ segs, seg.data = some seg.base := fun seg hseg => h.data_of_f2b hmsg hseg
  obtain ⟨rest, live', hloop, hsuffix, howned, hapart, hother⟩ :
      ∃ rest live', dataProcessF2b ans 0 segs s.live = some (rest, live') ∧ _ :=
    Owned.transmit h.balanced (bases_of_msg hmsg) hdata
  refine ⟨rest, live', hloop, h.setMsg howned (hapart h.apart) ?_ fun b hb _ => hother b (.inl hb)⟩
  intro seg hseg
  obtain ⟨k, hdata, hlive, hread⟩ := h.seg_inside hmsg (hsuffix.subset hseg)
  refine ⟨k, hdata, ?_, hread⟩
  rw [hother _ (.inr (List.mem_map_of_mem hseg)), hlive]

/-- A session is deleted, and no segment of it is read in part. -/
lemma deleteSess (h : Inv s) {sent received : List Seg} (hsent : s.msg p .f2b = some sent)
    (hreceived : s.msg p .b2f = some received)
    (hkeeps : ∀ seg ∈ received, seg.data = some seg.base) :
    ∃ live₁ live₂, sessMsgQueueFreeAll sent s.live = some live₁ ∧
      sessMsgQueueFreeAll received live₁ = some live₂ ∧
      Inv { msg := update s.msg p fun _ => none, live := live₂ } := by
  obtain ⟨live₁, hfree₁, howned₁, hapart₁, hother₁⟩ :=
    Owned.freeAll h.balanced (bases_of_msg hsent) fun seg hseg => h.data_of_f2b hsent hseg
  have hne : ((p, .b2f) : SessPtr × Dir) ≠ (p, .f2b) := by simp
  obtain ⟨live₂, hfree₂, howned₂, hapart₂, hother₂⟩ :=
    Owned.freeAll howned₁ (by rw [update_of_ne hne, bases_of_msg hreceived]) hkeeps
  refine ⟨live₁, live₂, hfree₁, hfree₂, ?_, hapart₂ (hapart₁ h.apart), ?_⟩
  · rw [State.Balanced, bases_reinit fun _ => rfl]
    exact howned₂
  · intro q d segs hmsg seg hseg
    have hmsg : update s.msg p (fun _ => none) q d = some segs := hmsg
    have hq : q ≠ p := by
      rintro rfl
      rw [update_self] at hmsg
      cases hmsg
    rw [update_of_ne hq] at hmsg
    obtain ⟨k, hdata, hlive, hread⟩ := h.seg_inside hmsg hseg
    refine ⟨k, hdata, ?_, hread⟩
    have hmem : seg.base ∈ s.bases (q, d) := by
      rw [bases_of_msg hmsg]
      exact List.mem_map_of_mem hseg
    have hout : ∀ d', seg.base ∉ s.bases (p, d') := fun d' hin =>
      hq (Prod.mk.inj (h.balanced.apart _ _ _ hmem hin)).1
    show live₂ seg.base = _
    rw [hother₂ _ (by rw [update_of_ne hne]; exact hout _), hother₁ _ (hout _), hlive]

/-- **One call** that keeps the balance. -/
lemma step (h : Inv s) {c : Call} (hadmits : s.Admits c) (hkeeps : s.Keeps c) :
    ∃ s', s.step c = some s' ∧ Inv s' := by
  cases c with
  | sessConnect p => exact ⟨_, rfl, h.sessConnect hkeeps⟩
  | segQueue p d base len =>
      obtain ⟨segs, hmsg⟩ := Option.ne_none_iff_exists'.mp hadmits.1
      refine ⟨_, ?_, h.segQueue hmsg hadmits.2⟩
      rw [State.step, hmsg]
      rfl
  | sessRecv p size =>
      obtain ⟨segs, hmsg⟩ := Option.ne_none_iff_exists'.mp hadmits
      by_cases hsize : size = 0
      · exact ⟨s, if_pos hsize, h⟩
      · obtain ⟨segs', hloop, hinv⟩ := h.sessRecv hsize hmsg fun seg rest hsegs =>
          (hkeeps seg rest (hsegs ▸ hmsg)).resolve_left hsize
        refine ⟨_, ?_, hinv⟩
        rw [State.step, if_neg hsize, hmsg, Option.bind_eq_bind, Option.bind_some, hloop]
        rfl
  | sessTransmit p ans =>
      obtain ⟨segs, hmsg⟩ := Option.ne_none_iff_exists'.mp hadmits
      obtain ⟨rest, live', hloop, hinv⟩ := h.sessTransmit hmsg ans
      refine ⟨_, ?_, hinv⟩
      rw [State.step, hmsg, Option.bind_eq_bind, Option.bind_some, hloop]
      rfl
  | deleteSess p =>
      obtain ⟨sent, hsent⟩ := Option.ne_none_iff_exists'.mp (hadmits .f2b)
      obtain ⟨received, hreceived⟩ := Option.ne_none_iff_exists'.mp (hadmits .b2f)
      obtain ⟨live₁, live₂, hfree₁, hfree₂, hinv⟩ :=
        h.deleteSess hsent hreceived (hkeeps .b2f received hreceived)
      refine ⟨_, ?_, hinv⟩
      simp only [State.step, hsent, hreceived, Option.bind_eq_bind, Option.bind_some, hfree₁, hfree₂]
      rfl

/-- **No other call** keeps the balance. -/
lemma keeps (h : Inv s) {c : Call} (hstep : s.step c = some s') (hbalanced : s'.Balanced) :
    s.Keeps c := by
  cases c with
  | sessConnect p =>
      intro d segs hmsg
      obtain rfl := Option.some.inj hstep
      cases segs with
      | nil => rfl
      | cons seg rest =>
          have hmem : seg.base ∈ s.bases (p, d) := by
            rw [bases_of_msg hmsg]
            exact List.mem_cons_self
          rw [State.Balanced, bases_reinit fun _ => rfl] at hbalanced
          -- both queues of the session are empty now
          refine absurd hbalanced (h.balanced.not_drop hmem ?_)
          rintro ⟨q, d'⟩ hin
          by_cases hq : q = p
          · subst hq
            cases d' <;> simp at hin
          · have hne : ∀ d, (q, d') ≠ (p, d) := fun d heq => hq (Prod.mk.inj heq).1
            rw [update_of_ne (hne _), update_of_ne (hne _)] at hin
            exact hne d (h.balanced.apart _ _ _ hin hmem)
  | segQueue p d base len => trivial
  | sessRecv p size =>
      intro seg rest hmsg
      by_contra hnot
      obtain ⟨hsize, hlen⟩ := not_or.mp hnot
      rw [State.step, if_neg hsize, hmsg, Option.bind_eq_bind, Option.bind_some,
        recvLoop_taken (Nat.pos_of_ne_zero hsize) (Nat.le_of_not_lt hlen)] at hstep
      obtain ⟨rest', hloop, hsuffix⟩ :=
        @recvLoop_live rest s.live (size - seg.len)
      rw [hloop] at hstep
      obtain rfl := Option.some.inj hstep
      have hbases := bases_of_msg hmsg
      have hmem : seg.base ∈ s.bases (p, .b2f) := by
        rw [hbases]
        exact List.mem_cons_self
      have hnodup := h.balanced.nodup (p, .b2f)
      rw [hbases, List.map_cons, List.nodup_cons] at hnodup
      rw [State.Balanced, bases_setMsg] at hbalanced
      refine absurd hbalanced (h.balanced.not_drop hmem ?_)
      intro j hin
      by_cases hj : j = (p, .b2f)
      · subst hj
        rw [update_self] at hin
        exact hnodup.1 (hsuffix.subset hin)
      · rw [update_of_ne hj] at hin
        exact hj (h.balanced.apart _ _ _ hin hmem)
  | sessTransmit p ans => trivial
  | deleteSess p =>
      intro d segs hmsg seg hseg
      rw [State.step] at hstep
      obtain ⟨sent, hsent, hstep⟩ := Option.bind_eq_some_iff.mp hstep
      obtain ⟨live₁, hfree₁, hstep⟩ := Option.bind_eq_some_iff.mp hstep
      obtain ⟨received, hreceived, hstep⟩ := Option.bind_eq_some_iff.mp hstep
      obtain ⟨live₂, hfree₂, -⟩ := Option.bind_eq_some_iff.mp hstep
      obtain ⟨hlive₁, hle⟩ := data_of_freeAll hfree₁
      obtain ⟨hlive₂, -⟩ := data_of_freeAll hfree₂
      obtain ⟨k, hdata, hlive, hread⟩ := h.seg_inside hmsg hseg
      by_cases hk : k = 0
      · rw [hdata, hk, Nat.add_zero]
      · obtain ⟨hpos, rfl⟩ := hread hk
        obtain rfl := Option.some.inj (hmsg.symm.trans hreceived)
        -- the pointer is inside the block, so `free` does not find it
        have hinside := Ledger.not_live_inside h.apart hlive (Nat.pos_of_ne_zero hk) (by omega)
        exact absurd hinside (hle _ (hlive₂ seg hseg _ hdata))

end Inv

/-- **The ledger of segment buffers.** In a run in which no session with queued segments is
connected again, no segment is read to its end, and no session with a partly read segment is
deleted, the live buffers are those of the queued segments, each once. A further call releases
what it releases once and at its base, and leaks nothing, exactly if it is such a call too. -/
theorem buffers_balanced {calls : List Call}
    (h : Runs (Guarded (fun s c => s.Admits c ∧ s.Keeps c) (OfFun State.step)) initState calls s) :
    s.Balanced ∧ ∀ c, s.Admits c → (s.Keeps c ↔ ∃ s', s.step c = some s' ∧ s'.Balanced) := by
  have hinit : Inv initState :=
    ⟨Owned.empty, fun _ _ _ _ hx => (by cases hx), fun _ _ _ hmsg => (by cases hmsg)⟩
  have hinv : Inv s := by
    refine h.invariant Inv ?_ hinit
    rintro s c s' hs ⟨⟨hadmits, hkeeps⟩, hstep⟩
    obtain ⟨s'', hstep', hs''⟩ := hs.step hadmits hkeeps
    obtain rfl := Option.some.inj (hstep'.symm.trans hstep)
    exact hs''
  refine ⟨hinv.balanced, fun c hadmits => ⟨fun hkeeps => ?_, ?_⟩⟩
  · obtain ⟨s', hstep, hs'⟩ := hinv.step hadmits hkeeps
    exact ⟨s', hstep, hs'.balanced⟩
  · rintro ⟨s', hstep, hbalanced⟩
    exact hinv.keeps hstep hbalanced

/-- A segment of ten bytes arrives and four are read. -/
def partialRun : List Call := [.sessConnect 0, .segQueue 0 .b2f 4096 10, .sessRecv 0 4]

lemma admits_first : Fresh (fun _ => none) 4096 10 := by
  intro a m ha
  cases ha

/-- After the run the block is live and in the queue; the rest may not be read yet. -/
theorem buffers_balanced_partial :
    ∃ s, Runs (Guarded (fun s c => s.Admits c ∧ s.Keeps c) (OfFun State.step)) initState
        partialRun s ∧ s.live 4096 = some 10 ∧ s.Balanced ∧
      ∀ c, s.Admits c → (s.Keeps c ↔ ∃ s', s.step c = some s' ∧ s'.Balanced) := by
  have hrun : Runs (Guarded (fun s c => s.Admits c ∧ s.Keeps c) (OfFun State.step)) initState
      partialRun _ :=
    .cons ⟨⟨trivial, fun _ _ hmsg => by cases hmsg⟩, rfl⟩ <|
    .cons ⟨⟨⟨by simp, admits_first⟩, trivial⟩, rfl⟩ <|
    .cons ⟨⟨by simp [State.Admits, State.setMsg], fun seg rest hmsg => .inr (by
      obtain ⟨rfl, -⟩ := List.cons.inj (Option.some.inj hmsg)
      decide)⟩, rfl⟩ .nil
  exact ⟨_, hrun, rfl, buffers_balanced hrun⟩

/-- When all ten bytes are read at once, the block stays live and no queue holds it. When only
four are read and the session is deleted, the pointer that is given to `free` is no base. -/
theorem read_buffer_leaks :
    (∃ s, Runs (Guarded State.Admits (OfFun State.step)) initState
        [.sessConnect 0, .segQueue 0 .b2f 4096 10, .sessRecv 0 10] s ∧
      s.live 4096 = some 10 ∧ ¬ s.Balanced) ∧
    ∃ s, Runs (Guarded State.Admits (OfFun State.step)) initState partialRun s ∧
      s.Admits (.deleteSess 0) ∧ s.step (.deleteSess 0) = none := by
  have hstart : ∀ calls s, Runs (Guarded State.Admits (OfFun State.step)) _ calls s →
      Runs (Guarded State.Admits (OfFun State.step)) initState
        (.sessConnect 0 :: .segQueue 0 .b2f 4096 10 :: calls) s := fun calls s h =>
    .cons ⟨trivial, rfl⟩ <| .cons ⟨⟨by simp, admits_first⟩, rfl⟩ h
  refine ⟨⟨_, hstart _ _ (.cons ⟨by simp [State.Admits, State.setMsg], rfl⟩ .nil), rfl, ?_⟩,
    _, hstart _ _ (.cons ⟨by simp [State.Admits, State.setMsg], rfl⟩ .nil), ?_, rfl⟩
  · intro hbalanced
    obtain ⟨⟨q, d⟩, hin⟩ := (hbalanced.live_iff 4096).mp (by simp [State.setMsg])
    by_cases hq : q = 0
    · subst hq
      cases d <;> simp [State.bases, State.setMsg] at hin
    · simp [State.bases, State.setMsg, update_of_ne hq, initState] at hin
  · intro d
    cases d <;> simp [State.setMsg]

end Frontend.Buffers
