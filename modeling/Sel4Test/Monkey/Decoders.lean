import Sel4Test.Monkey.OneClick

/-!
The bounds of the decoders of responses in `Protocol1Connection.cc` and
`Protocol2Connection.cc`.

A decoder should read inside the message, and refuse a message whose body is too short for the
fields that it decodes, with nothing stored for the caller. The fields are those that the caller
wants; the body has the code and the length of the text in front of them. The decoders check the
length of the message, of the body, of the text, or nothing.

* `onSuccess_keeps_iff`, `decode_keeps_iff`: which responses the one-click calls handle well.
-/

namespace Monkey.MsgBuffer

open ByteMem

/-! ### Inside a message -/

/-- The range lies inside a message with so much data. -/
def Inside (length : UInt64) (r : ℤ × ℕ) : Prop :=
  r.2 = 0 ∨ 0 ≤ r.1 ∧ r.1 + r.2 ≤ 16 + (length.toNat : ℤ)

lemma inside_iff (length : UInt64) (o : ℤ) (n : ℕ) (ho : 0 ≤ o) (hn : 0 < n) :
    Inside length (o, n) ↔ o + n ≤ 16 + (length.toNat : ℤ) := by
  rw [Inside]
  dsimp only
  omega

/-- What was read lies inside the message, and if the message is too short it was refused and
nothing stored. -/
def Handled.Keeps (d : Handled) (length : UInt64) (short : Prop) : Prop :=
  (∀ r ∈ d.reads, Inside length r) ∧ (short → d.status = some .protocolError ∧ d.outs = [])

section Keeps

variable {length : UInt64} {short : Prop} {fields : List ((ℤ × ℕ) × Out)} {d : Handled}

lemma Handled.of_keeps :
    (Handled.of fields).Keeps length short ↔ (∀ f ∈ fields, Inside length f.1) ∧ ¬ short := by
  rw [Handled.Keeps]
  constructor
  · rintro ⟨hreads, hshort⟩
    refine ⟨fun f hf => hreads f.1 (List.mem_map_of_mem hf), fun hs => ?_⟩
    have hstatus := (hshort hs).1
    rw [Handled.of] at hstatus
    cases hstatus
  · rintro ⟨hfields, hs⟩
    refine ⟨fun r hr => ?_, fun h => absurd h hs⟩
    obtain ⟨f, hf, rfl⟩ := List.mem_map.mp hr
    exact hfields f hf

lemma Handled.error_keeps (leaves : Bool) : (Handled.error leaves).Keeps length short :=
  ⟨fun _ hr => (by cases hr), fun _ => ⟨rfl, rfl⟩⟩

/-- Reads in front. -/
lemma Handled.after_keeps {reads : List (ℤ × ℕ)} :
    (d.after reads []).Keeps length short ↔
      (∀ r ∈ reads, Inside length r) ∧ d.Keeps length short := by
  rw [Handled.Keeps, Handled.Keeps, Handled.after]
  simp only [List.mem_append, List.nil_append]
  constructor
  · rintro ⟨hreads, hshort⟩
    exact ⟨fun r hr => hreads r (.inl hr), fun r hr => hreads r (.inr hr), hshort⟩
  · rintro ⟨hreads, hd, hshort⟩
    exact ⟨fun r hr => hr.elim (hreads r) (hd r), hshort⟩

/-- Where something is stored in any case, the message must not be short. -/
lemma Handled.store_keeps {out : Out} :
    (d.after [] [out]).Keeps length short ↔ (∀ r ∈ d.reads, Inside length r) ∧ ¬ short := by
  rw [Handled.Keeps, Handled.after]
  simp only [List.nil_append]
  constructor
  · rintro ⟨hreads, hshort⟩
    refine ⟨hreads, fun hs => ?_⟩
    have houts := (hshort hs).2
    cases houts
  · rintro ⟨hreads, hs⟩
    exact ⟨hreads, fun h => absurd h hs⟩

end Keeps

/-! ### One-click calls -/

/-- The bytes of the payload of `tryAlloc` of version 2 that hold what the caller wants. -/
def payload (blockId dataVer readKey writeKey : Bool) : ℕ :=
  if writeKey then 32 else if readKey then 24 else if dataVer then 16
  else if blockId then 8 else 0

/-- The version of the entry of `locateMemoryNodes` at `off`. -/
def entryVersion (r : Response) (off : ℕ) : UInt32 :=
  UInt32.ofNat (ofBE (loadAt r.bytes (24 + (off : ℤ) + 8) 4))

/-- The last entry of `locateMemoryNodes` is cut before its version, or before its address
although its version is 4. -/
def EntryCut (m : Received) : Prop :=
  let body := m.header.length.toNat - 8
  0 < body % 32 ∧ (body % 32 < 12 ∨
    body % 32 < 20 ∧ entryVersion m.response (body - body % 32) = 4)

/-- Behind code and length of the text, the body is too short for what the call decodes. -/
def Call.Short (call : Call) (m : Received) : Prop :=
  let body := m.header.length.toNat - 8
  match call with
  | .memoryNodeClockIn => body < 8
  | .locateMemoryNodes => EntryCut m
  | .tryAlloc1 => body % 8 ≠ 0
  | .readBlock1 bufSize => body < bufSize.toNat
  | .checkAvailMem => body < 8
  | .tryAlloc2 blockId dataVer readKey writeKey => body < payload blockId dataVer readKey writeKey
  | .readBlock2 _ => body < 8 + 4096
  | .writeBlock2 wanted => wanted = true ∧ body < 8
  | .refBlock wanted => wanted = true ∧ body < 8
  | .getBlockDataVersion wanted => wanted = true ∧ body < 8
  | .plainText wanted => wanted = true ∧ body < 8
  | .writeBlock1 => False
  | .freeBlock => False
  | .unrefBlock => False

/-- The message is too short for what the macro and the call decode. -/
def Call.Cut (call : Call) (m : Received) : Prop :=
  m.header.length.toNat < 8 ∨ m.code = 0 ∧ call.Short m

/-- The length of a message with code 0 and at least 8 bytes of data suits the call. -/
def Call.Suits (call : Call) (m : Received) : Prop :=
  let length := m.header.length.toNat
  match call with
  | .locateMemoryNodes => ¬ EntryCut m
  | .tryAlloc1 => 8 ∣ length
  | .checkAvailMem => 16 ≤ length
  | .tryAlloc2 _ _ _ writeKey => writeKey = true → length < 32 ∨ 40 ≤ length
  | .writeBlock2 wanted => m.msgLen = 8 → wanted = true → 16 ≤ length
  | .refBlock wanted => wanted = true → 16 ≤ length
  | .getBlockDataVersion wanted => wanted = true → 16 ≤ length
  | .plainText wanted => wanted = true → 16 ≤ length
  | _ => True

/-- The message suits the call. With another code, the text of the error is inside, or there is
no memory for it. -/
def Call.Fits (call : Call) (text : Bool) (m : Received) : Prop :=
  8 ≤ m.header.length.toNat ∧
    (m.code ≠ 0 → m.msgLen = 0 ∨ text = false ∨ 8 + m.msgLen.toNat ≤ m.header.length.toNat) ∧
    (m.code = 0 → call.Suits m)

lemma toNat_sub {a b : UInt64} (h : b.toNat ≤ a.toNat) : (a - b).toNat = a.toNat - b.toNat :=
  UInt64.toNat_sub_of_le a b (UInt64.le_iff_toNat_le.mpr h)

lemma fetch_inside (wanted : Bool) (param : Param) {o : ℤ} {r : Response} (ho : 0 ≤ o) :
    (∀ f ∈ fetch wanted param o r, Inside r.length f.1) ↔
      (wanted = true → o + 8 ≤ 16 + (r.length.toNat : ℤ)) := by
  cases wanted with
  | false => simp [fetch]
  | true =>
      have hin := inside_iff r.length o 8 ho (by decide)
      simpa [fetch] using hin

/-- An entry that is not cut has its version inside, and its address if the version is 4. -/
lemma entry_inside {m : Received} (hL : 8 ≤ m.header.length.toNat) (hcut : ¬ EntryCut m)
    {off : ℕ} (hoff : 32 ∣ off) (hlt : off < m.header.length.toNat - 8) :
    off + 20 ≤ m.header.length.toNat ∧
      (entryVersion m.response off = 4 → off + 28 ≤ m.header.length.toNat) := by
  by_cases hlast : off + 32 ≤ m.header.length.toNat - 8
  · omega
  · have hrest : (m.header.length.toNat - 8) % 32 = m.header.length.toNat - 8 - off := by omega
    have hstart : m.header.length.toNat - 8 - (m.header.length.toNat - 8 - off) = off := by omega
    rw [EntryCut] at hcut
    simp only [hrest, hstart, not_and, not_or] at hcut
    obtain ⟨hver, haddr⟩ := hcut (by omega)
    refine ⟨by omega, fun h4 => ?_⟩
    by_contra hshort
    exact haddr (by omega) h4

/-- The loop of `locateMemoryNodes` reads inside, unless its last entry is cut. -/
lemma locateLoop_inside {m : Received} (hL : 8 ≤ m.header.length.toNat) (hcut : ¬ EntryCut m)
    (fuel : ℕ) (off : UInt64) (hoff : 32 ∣ off.toNat) :
    ∀ r ∈ (Protocol1Connection.locateLoop m.response fuel off).reads, Inside m.header.length r := by
  induction fuel generalizing off with
  | zero =>
      intro r hr
      cases hr
  | succ fuel ih =>
      have hnext : 32 ∣ (off + 32).toNat := by
        rw [UInt64.toNat_add]
        have h32 : (32 : UInt64).toNat = 32 := rfl
        rw [h32]
        omega
      rw [Protocol1Connection.locateLoop]
      by_cases hlt : off < m.response.length - 8
      · have hlt' : off.toNat < m.header.length.toNat - 8 := by
          rw [← show (m.header.length - 8).toNat = m.header.length.toNat - 8 from toNat_sub hL]
          exact UInt64.lt_iff_toNat_lt.mp hlt
        obtain ⟨hver, haddr⟩ := entry_inside hL hcut hoff hlt'
        rw [if_pos hlt]
        dsimp only
        split_ifs with h4
        · intro r hr
          rcases List.mem_append.mp hr with hr | hr
          · obtain rfl := List.mem_singleton.mp hr
            rw [inside_iff _ _ _ (by omega) (by decide)]
            omega
          · exact ih _ hnext r hr
        · have hend := haddr (not_not.mp h4)
          intro r hr
          rcases List.mem_append.mp hr with hr | hr
          · simp only [List.mem_cons, List.not_mem_nil, or_false] at hr
            rcases hr with rfl | rfl | rfl | rfl
            all_goals
              rw [inside_iff _ _ _ (by omega) (by decide)]
              omega
          · exact ih _ hnext r hr
      · rw [if_neg hlt]
        intro r hr
        cases hr

/-- One field, if the caller wants it. -/
lemma fetch_keeps (wanted : Bool) (param : Param) (m : Received) :
    (Handled.of (fetch wanted param 24 m.response)).Keeps m.header.length
      (wanted = true ∧ m.header.length.toNat - 8 < 8) ↔
        (wanted = true → 16 ≤ m.header.length.toNat) := by
  have hin := fetch_inside wanted param (o := 24) (r := m.response)
    (by decide)
  rw [Handled.of_keeps]
  refine (and_congr_left' hin).trans ?_
  have hlen : m.response.length.toNat = m.header.length.toNat := rfl
  rw [hlen]
  constructor
  · rintro ⟨hinside, -⟩ hwanted
    have hend := hinside hwanted
    omega
  · intro hlong
    refine ⟨fun hwanted => ?_, fun ⟨hwanted, hshort⟩ => ?_⟩
    · have hend := hlong hwanted
      omega
    · have hend := hlong hwanted
      omega

/-- Nothing is decoded. -/
lemma nothing_keeps (length : UInt64) : (Handled.of []).Keeps length False :=
  Handled.of_keeps.mpr ⟨fun _ hf => (by cases hf), id⟩

/-- The words of `tryAlloc`. -/
lemma tryAlloc1_keeps {m : Received} (hL : 8 ≤ m.header.length.toNat) :
    (Protocol1Connection.tryAlloc m.response).Keeps m.header.length
      ((m.header.length.toNat - 8) % 8 ≠ 0) ↔ 8 ∣ m.header.length.toNat := by
  rw [Protocol1Connection.tryAlloc, Handled.store_keeps]
  constructor
  · rintro ⟨-, hshort⟩
    omega
  · intro hdvd
    refine ⟨?_, by omega⟩
    intro r hr
    obtain ⟨f, hf, rfl⟩ := List.mem_map.mp hr
    obtain ⟨i, hi, rfl⟩ := List.mem_map.mp hf
    have hlt : i < (m.header.length.toNat - 8 + 7) / 8 := List.mem_range.mp hi
    rw [inside_iff _ _ _ (by omega) (by decide)]
    omega

/-- The block of `readBlock`. -/
lemma readBlock1_keeps (bufSize : UInt64) {m : Received} (hL : 8 ≤ m.header.length.toNat) :
    (Protocol1Connection.readBlock bufSize m.response).Keeps m.header.length
      (m.header.length.toNat - 8 < bufSize.toNat) := by
  rw [Protocol1Connection.readBlock]
  by_cases hsize : m.response.length - 8 ≠ bufSize
  · rw [if_pos hsize]
    exact Handled.error_keeps _
  · have hbuf : bufSize.toNat = m.header.length.toNat - 8 := by
      rw [← not_not.mp hsize]
      exact toNat_sub hL
    rw [if_neg hsize, Handled.of_keeps, hbuf]
    refine ⟨?_, by omega⟩
    intro f hf
    obtain rfl := List.mem_singleton.mp hf
    right
    dsimp only
    omega

/-- Version and block of `readBlock`. -/
lemma readBlock2_keeps (dataVer : Bool) (m : Received) :
    (Protocol2Connection.readBlock dataVer m.response).Keeps m.header.length
      (m.header.length.toNat - 8 < 8 + 4096) := by
  rw [Protocol2Connection.readBlock]
  by_cases hsize : m.response.length - 8 - 8 ≠ 4096
  · rw [if_pos hsize]
    exact Handled.error_keeps _
  · have hlen : m.header.length = 4112 := by
      have hsub : m.header.length - 8 - 8 = 4096 := not_not.mp hsize
      calc
        m.header.length = m.header.length - 8 - 8 + 8 + 8 := by
          rw [UInt64.sub_add_cancel, UInt64.sub_add_cancel]
        _ = 4112 := by rw [hsub]; decide
    have hnat : m.header.length.toNat = 4112 := by
      rw [hlen]
      rfl
    rw [if_neg hsize, Handled.of_keeps, hnat]
    refine ⟨?_, by omega⟩
    intro f hf
    rcases List.mem_append.mp hf with hf | hf
    · refine (fetch_inside _ _ (r := m.response) (by decide)).mpr (fun _ => ?_) f hf
      have hresp : m.response.length.toNat = m.header.length.toNat := rfl
      omega
    · obtain rfl := List.mem_singleton.mp hf
      rw [inside_iff _ _ _ (by decide) (by decide)]
      omega

/-- The four fields of `tryAlloc`. -/
lemma tryAlloc2_keeps (blockId dataVer readKey writeKey : Bool) (m : Received) :
    (Protocol2Connection.tryAlloc blockId dataVer readKey writeKey m.response).Keeps
      m.header.length
      (m.header.length.toNat - 8 < payload blockId dataVer readKey writeKey) ↔
        (writeKey = true → m.header.length.toNat < 32 ∨ 40 ≤ m.header.length.toNat) := by
  rw [Protocol2Connection.tryAlloc]
  by_cases hshort : m.response.length < 32
  · have hlt : m.header.length.toNat < 32 := UInt64.lt_iff_toNat_lt.mp hshort
    rw [if_pos hshort]
    exact iff_of_true (Handled.error_keeps _) fun _ => .inl hlt
  · have hlong : 32 ≤ m.header.length.toNat :=
      UInt64.le_iff_toNat_le.mp (UInt64.not_lt.mp hshort)
    have hresp : m.response.length.toNat = m.header.length.toNat := rfl
    have hread := inside_iff m.header.length 40 8 (by decide) (by decide)
    have hwrite := inside_iff m.header.length 48 8 (by decide)
      (by decide)
    rw [if_neg hshort, Handled.of_keeps]
    constructor
    · rintro ⟨-, hcut⟩ rfl
      rw [payload, if_pos rfl] at hcut
      omega
    · intro hwk
      refine ⟨?_, ?_⟩
      · intro f hf
        rcases List.mem_append.mp hf with hf | hf
        · rcases List.mem_append.mp hf with hf | hf
          · rcases List.mem_append.mp hf with hf | hf
            · refine (fetch_inside _ _ (r := m.response) (by decide)).mpr (fun _ => ?_) f hf
              omega
            · refine (fetch_inside _ _ (r := m.response) (by decide)).mpr (fun _ => ?_) f hf
              omega
          · split_ifs at hf
            · obtain rfl := List.mem_singleton.mp hf
              exact hread.mpr (by omega)
            · cases hf
        · split_ifs at hf with hwanted
          · have hend := hwk hwanted
            obtain rfl := List.mem_singleton.mp hf
            exact hwrite.mpr (by omega)
          · cases hf
      · rw [payload]
        split_ifs with hwanted
        · have hend := hwk hwanted
          omega
        all_goals omega

/-- **The code for a success**: it reads inside and refuses what is too short exactly if the
length of the message suits the call. -/
lemma onSuccess_keeps_iff (call : Call) (m : Received) (hL : 8 ≤ m.header.length.toNat) :
    (call.onSuccess m.response).Keeps m.header.length (call.Short m) ↔ call.Suits m := by
  -- one case for each call; those that take no argument from the caller always keep
  cases call with
  | memoryNodeClockIn =>
      rw [Call.onSuccess, Protocol1Connection.memoryNodeClockIn]
      by_cases hshort : m.response.length < 16
      · rw [if_pos hshort]
        exact iff_of_true (Handled.error_keeps _) trivial
      · have hlong : 16 ≤ m.header.length.toNat :=
          UInt64.le_iff_toNat_le.mp (UInt64.not_lt.mp hshort)
        rw [if_neg hshort, Handled.of_keeps]
        refine iff_of_true ⟨?_, ?_⟩ trivial
        · intro f hf
          obtain rfl := List.mem_singleton.mp hf
          rw [inside_iff _ _ _ (by omega) (by decide)]
          omega
        · rw [Call.Short]
          omega
  | locateMemoryNodes =>
      rw [Call.onSuccess, Protocol1Connection.locateMemoryNodes, Handled.store_keeps]
      exact and_iff_right_of_imp fun hcut => locateLoop_inside hL hcut _ 0 (by decide)
  | tryAlloc1 => exact tryAlloc1_keeps hL
  | readBlock1 bufSize => exact iff_of_true (readBlock1_keeps bufSize hL) trivial
  | writeBlock1 => exact iff_of_true (nothing_keeps _) trivial
  | freeBlock => exact iff_of_true (nothing_keeps _) trivial
  | unrefBlock => exact iff_of_true (nothing_keeps _) trivial
  | checkAvailMem =>
      have hfetch := fetch_keeps true .availMem m
      simp only [true_and, true_imp_iff] at hfetch
      exact hfetch
  | tryAlloc2 blockId dataVer readKey writeKey => exact tryAlloc2_keeps _ _ _ _ m
  | readBlock2 dataVer => exact iff_of_true (readBlock2_keeps dataVer m) trivial
  | writeBlock2 dataVer =>
      rw [Call.onSuccess, Protocol2Connection.writeBlock]
      by_cases htext : m.response.msgLen ≠ 8
      · rw [if_pos htext]
        exact iff_of_true (Handled.error_keeps _) fun h8 => absurd h8 htext
      · have hfetch := fetch_keeps dataVer .dataVer m
        rw [if_neg htext]
        exact hfetch.trans ⟨fun h _ => h, fun h => h (not_not.mp htext)⟩
  | refBlock blockId => exact fetch_keeps blockId .blockId m
  | getBlockDataVersion dataVer => exact fetch_keeps dataVer .dataVer m
  | plainText checksum =>
      cases checksum with
      | false =>
          refine iff_of_true ⟨fun r hr => (by cases hr), fun hs => ?_⟩ fun h => (by cases h)
          exact absurd hs.1 Bool.false_ne_true
      | true => exact fetch_keeps true .checksum m

/-- The text of an error. -/
lemma text_inside (text : Bool) (m : Received) :
    (∀ r ∈ if m.msgLen = 0 ∨ text = false then [] else [((24 : ℤ), m.msgLen.toNat)],
      Inside m.header.length r) ↔
        m.msgLen = 0 ∨ text = false ∨ 8 + m.msgLen.toNat ≤ m.header.length.toNat := by
  by_cases hnone : m.msgLen = 0 ∨ text = false
  · rw [if_pos hnone]
    exact iff_of_true (fun r hr => (by cases hr)) (hnone.imp_right .inl)
  · rw [not_or] at hnone
    have hpos : 0 < m.msgLen.toNat := by
      rw [Nat.pos_iff_ne_zero]
      intro hzero
      exact hnone.1 (UInt32.toNat_inj.mp hzero)
    have hin := inside_iff m.header.length 24 _ (by decide) hpos
    rw [if_neg (not_or.mpr hnone), List.forall_mem_singleton, hin, or_iff_right hnone.1,
      or_iff_right hnone.2]
    omega

/-- **Which responses the calls handle well**: at least code and length of the text are there;
the text of an error is inside, unless there is no memory for it; with code 0 the length of the
message suits the call. -/
lemma decode_keeps_iff (call : Call) (text : Bool) (m : Received) :
    (decode call text m).Keeps m.header.length (call.Cut m) ↔ call.Fits text m := by
  have hcode := inside_iff m.header.length 16 4 (by decide) (by decide)
  have hmsgLen := inside_iff m.header.length 20 4 (by decide) (by decide)
  by_cases hL : 8 ≤ m.header.length.toNat
  · have hwords : ∀ r ∈ [((16 : ℤ), 4), (20, 4)], Inside m.header.length r := by
      intro r hr
      simp only [List.mem_cons, List.not_mem_nil, or_false] at hr
      rcases hr with rfl | rfl
      · exact hcode.mpr (by omega)
      · exact hmsgLen.mpr (by omega)
    rw [Call.Fits, and_iff_right hL, Call.Cut, or_iff_right (by omega)]
    by_cases hc : m.code = 0
    · rw [decode_success hc, Handled.after_keeps, and_iff_right hwords]
      simp only [hc, true_and, ne_eq, not_true_eq_false, false_imp_iff, true_imp_iff]
      exact onSuccess_keeps_iff call m hL
    · rw [decode_refused hc, Handled.after_keeps, and_iff_right hwords, Handled.after_keeps,
        and_iff_left (Handled.error_keeps _)]
      simp only [hc, ne_eq, not_false_eq_true, true_imp_iff, false_imp_iff, and_true]
      exact text_inside text m
  · refine iff_of_false ?_ fun hfits => hL hfits.1
    rintro ⟨hreads, -⟩
    have hread := hreads (20, 4) (by simp [decode, Handled.after])
    rw [hmsgLen] at hread
    omega

end Monkey.MsgBuffer
