import Sel4Test.Server.BulkRoundTrip

/-!
What a message of the cipher channel makes the server touch.

The payload length of a message comes from the peer and is taken over as it is. Every service
cuts it down before it is used, so that the accesses stay inside the buffers for every content
of the message.

* `ReplyOf`: the replies, with the payload that the buffers hold.
* `normalMessage_spec`: a small message touches nothing but local arrays, inside their bounds.
* `processBulk_inside`: neither does a bulk message leave its local arrays.
* `message_safe`: a whole call.
-/

namespace Ch0

open ByteMem Touch Hyperamp

/-! ### Accesses and replies -/

/-- An access to a local array, inside its bounds. -/
def Local : Event Buf → Prop
  | .read o x | .write o x => o ≠ .region ∧ x < o.size
  | _ => False

/-- An access inside the bounds if it is to a local array. -/
def Inside : Event Buf → Prop
  | .read o x | .write o x => o ≠ .region → x < o.size
  | _ => True

lemma Local.inside {e : Event Buf} (h : Local e) : Inside e := by
  cases e with
  | read | write => exact fun _ => h.2
  | invalidate | clean => exact h.elim

/-- The replies: the bytes of the message enciphered, or the descriptor in it. -/
inductive ReplyOf (m : Mem) : List UInt8 → Prop
  | crypt (frontendSess backendSess : UInt16) {n : ℕ} (h : n ≤ hyperampMsgMaxSize) :
      ReplyOf m (msgHeader msgTypeData frontendSess backendSess (UInt16.ofNat n) ++
        (load m msgHeaderSize n).map cipher)
  | bulk : ReplyOf m (msgHeader msgTypeBulk 0 0 16 ++ load m msgHeaderSize 16)

/-- The `payload_len` field of a message. -/
def payloadLenField (msg : List UInt8) : ℕ := ofLE ((msg.drop 6).take 2)

lemma payloadLenField_append (msgType : UInt8) (fs bs len : UInt16) (payload : List UInt8) :
    payloadLenField (msgHeader msgType fs bs len ++ payload) = len.toNat := by
  have hfield : ((msgHeader msgType fs bs len ++ payload).drop 6).take 2 = toLE 2 len.toNat := by
    have hfront : ([1, msgType] ++ toLE 2 fs.toNat ++ toLE 2 bs.toNat).length = 6 := by simp
    rw [msgHeader, List.append_assoc _ (toLE 2 len.toNat), ← hfront, List.drop_left]
    exact List.take_left' (length_toLE ..)
  rw [payloadLenField, hfield, ofLE_toLE_of_lt len.toNat_lt]

/-- A reply fits a block, and its payload length counts its payload. -/
lemma ReplyOf.fits {m : Mem} {msg : List UInt8} (h : ReplyOf m msg) :
    msg.length ≤ defaultBlockSize.toNat ∧ msg.length = msgHeaderSize + payloadLenField msg := by
  have hblock : defaultBlockSize.toNat = 4096 := rfl
  rw [hblock]
  cases h with
  | @crypt fs bs n hn =>
      rw [hyperampMsgMaxSize] at hn
      have hlen : (UInt16.ofNat n).toNat = n := by
        rw [UInt16.toNat_ofNat', Nat.mod_eq_of_lt (by omega)]
      rw [payloadLenField_append, hlen, List.length_append, length_msgHeader, List.length_map,
        length_load, msgHeaderSize]
      exact ⟨by omega, rfl⟩
  | bulk =>
      rw [payloadLenField_append, List.length_append, length_msgHeader, length_load, msgHeaderSize]
      exact ⟨by norm_num, rfl⟩

/-! ### Small messages -/

section Normal

variable {s : State Buf}

lemma printString_spec {a n : ℕ} (h : a + n ≤ 4096) :
    Does Local s (ch0PrintString .msgBuf a n) fun _ t => Same s t := by
  induction n generalizing s a with
  | zero => exact Does.pure rfl
  | succ n ih =>
      have hin : a < 4096 := by omega
      refine (Does.readByte ⟨by decide, hin⟩).bind ?_
      rintro c t ⟨-, rfl⟩
      split_ifs
      · exact Does.pure rfl
      · exact (ih (by omega)).mono fun _ _ ht => ht

/-- A call of the network channel reads the result. -/
lemma tryForward_spec {env : TextEnv} {n : ℕ} {serviceId : UInt8} (hn : n ≤ hyperampMsgMaxSize) :
    Does Local s (ch0TryForwardToCh1 env .resultBuf n serviceId) fun _ t => Same s t := by
  rw [ch0TryForwardToCh1]
  split_ifs
  · exact Does.pure rfl
  · have hread : ∀ i < n, Local (.read .resultBuf (0 + i)) := by
      intro i hi
      have hin : 0 + i < hyperampMsgMaxSize := by omega
      exact ⟨by decide, hin⟩
    refine (Does.readBlock hread).bind ?_
    rintro bytes t ⟨-, ht⟩
    exact Does.pure ht

lemma sendReply_spec {n : ℕ} {fs bs : UInt16} (hn : n ≤ hyperampMsgMaxSize) :
    Does Local s (ch0SendReply .resultBuf n fs bs) fun out t => Keeps s t ∧
      out = .reply (msgHeader msgTypeData fs bs (UInt16.ofNat n) ++
        load (s.mem .resultBuf) 0 n) := by
  rw [hyperampMsgMaxSize] at hn
  have hsize : ¬ msgHeaderSize + n > defaultBlockSize.toNat := by
    have hblock : defaultBlockSize.toNat = 4096 := rfl
    rw [msgHeaderSize, hblock]
    omega
  rw [ch0SendReply, if_neg hsize]
  refine buildReply_spec (by decide) (by decide) (by decide) (length_msgHeader ..) ?_ ?_
  · intro i hi
    rw [msgHeaderSize] at hi
    have hin : i < 4096 := by omega
    exact ⟨⟨by decide, hin⟩, by decide, hin⟩
  · intro i hi
    have hin : 0 + i < 4088 := by omega
    exact ⟨by decide, hin⟩

/-- A service answers with the message enciphered. -/
lemma serviceCrypt_spec {serviceId : UInt8} {env : TextEnv} {length : ℕ} {fs bs : UInt16} :
    Does Local s (ch0ServiceCrypt serviceId env msgHeaderSize length fs bs) fun out t =>
      t.mem .msgBuf = s.mem .msgBuf ∧ ∀ msg, out = .reply msg → ReplyOf (t.mem .msgBuf) msg := by
  rw [ch0ServiceCrypt]
  obtain ⟨n, hdef, hn⟩ : ∃ n, (if length > hyperampMsgMaxSize then hyperampMsgMaxSize else length) =
      n ∧ n ≤ hyperampMsgMaxSize := ⟨_, rfl, by split_ifs <;> omega⟩
  rw [hdef]
  have hresultBuf : ∀ i < n, 0 + i < Buf.resultBuf.size := by
    intro i hi
    rw [Nat.zero_add]
    exact hi.trans_le hn
  have hmsgBound : ∀ i < n, msgHeaderSize + i < Buf.msgBuf.size := by
    intro i hi
    have hsize : n ≤ 4088 := hn
    show 8 + i < 4096
    omega
  refine (Does.copy (by decide) fun i hi => ⟨⟨by decide, hmsgBound i hi⟩, by decide,
    hresultBuf i hi⟩).bind ?_
  rintro - t₁ h₁
  refine (Does.mapBlock fun i hi => ⟨⟨by decide, hresultBuf i hi⟩, by decide,
    hresultBuf i hi⟩).bind ?_
  rintro - t₂ h₂
  refine (tryForward_spec hn).bind ?_
  rintro code t₃ h₃
  refine (sendReply_spec hn).mono ?_
  rintro out t₄ ⟨⟨-, hmsg⟩, rfl⟩
  have hmsgBuf : t₃.mem .msgBuf = s.mem .msgBuf := by
    rw [h₃, h₂, Function.update_of_ne (by decide), h₁, Function.update_of_ne (by decide)]
  have hresult : load (t₃.mem .resultBuf) 0 n =
      (load (s.mem .msgBuf) msgHeaderSize n).map cipher := by
    have hcopy := load_store_same (s.mem .resultBuf) 0 (load (s.mem .msgBuf) msgHeaderSize n)
    rw [length_load] at hcopy
    rw [h₃, h₂, Function.update_self, load_mapRange, h₁, Function.update_self, hcopy]
  refine ⟨hmsg.trans hmsgBuf, fun msg hreply => ?_⟩
  rw [Outcome.reply.injEq] at hreply
  rw [← hreply, hresult, hmsg, hmsgBuf]
  exact .crypt fs bs hn

lemma serviceEcho_spec {length : ℕ} :
    Does Local s (ch0ServiceEcho msgHeaderSize length) fun out t =>
      t.mem .msgBuf = s.mem .msgBuf ∧ ∀ msg, out = .reply msg → ReplyOf (t.mem .msgBuf) msg := by
  refine (printString_spec (by rw [msgHeaderSize]; omega)).bind ?_
  rintro - t ht
  exact Does.pure ⟨by rw [ht], fun _ h => by cases h⟩

/-- **A small message**, of whatever length it claims to be. -/
lemma normalMessage_spec {env : TextEnv} {length : ℕ} {serviceId fs bs : UInt16} :
    Does Local s (ch0ProcessNormalMessage env msgHeaderSize length serviceId fs bs) fun out t =>
      t.mem .msgBuf = s.mem .msgBuf ∧ ∀ msg, out = .reply msg → ReplyOf (t.mem .msgBuf) msg := by
  rw [ch0ProcessNormalMessage]
  split_ifs
  · exact serviceEcho_spec
  · exact serviceCrypt_spec
  · exact serviceCrypt_spec
  · exact serviceEcho_spec

end Normal

/-! ### Bulk messages -/

section BulkMessage

variable {s : State Buf}

lemma Allowed.inside {lo hi : ℕ} {c : ℕ → Prop} {e : Event Buf}
    (h : Allowed lo hi msgHeaderSize c e) : Inside e := by
  cases e with
  | read o x | write o x =>
      intro hne
      cases o with
      | region => exact absurd rfl hne
      | msgBuf =>
          have hmsg : x < 8 + 16 := h.2
          show x < 4096
          omega
      | _ => exact h
  | invalidate | clean => exact trivial

lemma sendBulkReply_inside : Does Inside s (ch0SendBulkReply msgHeaderSize) fun out t =>
    ∀ msg, out = .reply msg → ReplyOf (t.mem .msgBuf) msg := by
  have hspec := @sendBulkReply_spec 0 0 msgHeaderSize s
  refine (hspec.weaken fun _ he => Allowed.inside (c := fun _ => False) he.allowed).mono ?_
  rintro out t ⟨⟨-, hmsg⟩, rfl⟩ msg hreply
  rw [Outcome.reply.injEq] at hreply
  rw [← hreply, hmsg]
  exact .bulk

lemma readDescriptor_inside : Does Inside s (readDescriptor msgHeaderSize) fun d t =>
    d = BulkDescriptor.read (s.mem .msgBuf) msgHeaderSize ∧ Same s t :=
  (@readDescriptor_spec 0 0 msgHeaderSize (fun _ => False) s).weaken fun _ => Allowed.inside

/-- After the service, for whatever descriptor it has left. -/
lemma bulkFinish_inside (env : Server.Env) (data : ℕ) :
    Does Inside s (bulkFinish env msgHeaderSize data) fun out t =>
      ∀ msg, out = .reply msg → ReplyOf (t.mem .msgBuf) msg := by
  refine readDescriptor_inside.bind ?_
  rintro d t -
  refine (Does.emit trivial).bind ?_
  rintro - t₁ -
  split_ifs
  · have hforward : Does (Sends 0 (d.data + d.len) msgHeaderSize) t₁
        (ch0TryForwardBulkToCh1 env d.data d.len (UInt8.ofNat d.serviceId.toNat))
        fun _ t₂ => Keeps t₁ t₂ :=
      tryForwardBulk_spec env fun _ => ⟨Nat.zero_le _, le_rfl⟩
    refine (hforward.weaken fun _ he => Allowed.inside (c := fun _ => False) he.allowed).bind ?_
    rintro code t₂ -
    split_ifs
    · exact Does.pure fun _ h => by cases h
    · exact sendBulkReply_inside
  · exact sendBulkReply_inside

/-- **A bulk message**, with whatever descriptor. -/
lemma processBulk_inside (env : Server.Env) (len : ℕ) :
    Does Inside s (ch0ProcessBulk env msgHeaderSize len) fun out t =>
      ∀ msg, out = .reply msg → ReplyOf (t.mem .msgBuf) msg := by
  by_cases hlen : len < bulkDescriptorSize
  · rw [ch0ProcessBulk, if_pos hlen]
    exact Does.pure fun _ h => by cases h
  rw [ch0ProcessBulk, if_neg hlen]
  refine readDescriptor_inside.bind ?_
  rintro d t ⟨rfl, ht⟩
  split_ifs
  · have hstatus := @setStatus_spec 0 0 msgHeaderSize (fun _ => False) t (-1)
    refine (hstatus.weaken fun _ => Allowed.inside).bind ?_
    rintro - t₁ -
    exact sendBulkReply_inside
  · refine (Does.emit trivial).bind ?_
    rintro - t₁ rfl
    refine ((bulkService_spec (c := fun _ => False) (by rw [ht])).weaken
      fun _ => Allowed.inside).bind ?_
    rintro - t₂ -
    exact bulkFinish_inside env _

end BulkMessage

/-! ### A whole call -/

section Call

variable {s : State Buf}

/-- For a block that has been dequeued: the accesses of the call stay inside the local arrays,
and do not touch the region if the message is small; a reply is one of the two, fits a block, and
counts its payload. -/
structure Safe (block : List UInt8) (out : Outcome) (t : State Buf) : Prop where
  inside : ∀ e ∈ t.log, Inside e
  small : block[1]? ≠ some msgTypeBulk → ∀ e ∈ t.log, Local e
  reply : ∀ msg, out = .reply msg → ReplyOf (t.mem .msgBuf) msg ∧
    msg.length ≤ defaultBlockSize.toNat ∧ msg.length = msgHeaderSize + payloadLenField msg

/-- The block that a call dequeues. -/
def dequeued (ctx : Option ChannelContext) (m : Mem) : List UInt8 :=
  match shmReadBuffer ctx true 4096 m with
  | none => []
  | some (_, block, _) => block

/-- A call that returns is safe, or still waits for the lock of the queue. -/
def MessageSafe (ctx : Option ChannelContext) (bulk : Server.Env) (text : TextEnv)
    (arrays : Buf → Mem) (m : Mem) : Prop :=
  match ch0ProcessMessage ctx bulk text arrays m with
  | none => True
  | some (out, t) => Safe (dequeued ctx m) out t

lemma Safe.of_ret {block : List UInt8} {code : HyperampRet} {t : State Buf} (h : t.log = []) :
    Safe block (.ret code) t := by
  refine ⟨?_, ?_, fun _ h => by cases h⟩
  · rw [h]
    exact fun _ he => absurd he List.not_mem_nil
  · rw [h]
    exact fun _ _ he => absurd he List.not_mem_nil

lemma Safe.of_does {block : List UInt8} {x : Prog Buf Outcome}
    (hx : Does Inside s x fun out t => ∀ msg, out = .reply msg → ReplyOf (t.mem .msgBuf) msg)
    (hsmall : block[1]? ≠ some msgTypeBulk → ∃ R, Does Local s x R) (hlog : s.log = []) :
    Safe block (x s).1 (x s).2 where
  inside := hx.log_allowed hlog
  small hne := by
    obtain ⟨R, hlocal⟩ := hsmall hne
    exact hlocal.log_allowed hlog
  reply msg h := ⟨hx.2 msg h, (hx.2 msg h).fits⟩

/-- The header fields of the message. -/
lemma header_spec {i w : ℕ} (h : i + w ≤ 8) :
    Does Local s (readWord .msgBuf i w) fun _ t => Same s t := by
  refine (Does.readWord fun k hk => ⟨by decide, ?_⟩).mono fun _ _ h => h.2
  show i + k < 4096
  omega

/-- Up to the dispatch only the message buffer is touched; its type byte is that of the block. -/
lemma dispatch_spec {P : Event Buf → Prop} {R : Outcome → State Buf → Prop} (bulk : Server.Env)
    (text : TextEnv) {block : List UInt8} (hblock : block.length ≤ 4096)
    (hP : ∀ e, Local e → P e) (hret : ∀ t, R (.ret .error) t)
    (hbulk : block[1]? = some msgTypeBulk →
      ∀ len t, Does P t (ch0ProcessBulk bulk msgHeaderSize len) R)
    (hnormal : ∀ length serviceId fs bs t,
      Does P t (ch0ProcessNormalMessage text msgHeaderSize length serviceId fs bs) R) :
    Does P s (ch0Dispatch bulk text block) R := by
  rw [ch0Dispatch]
  have hwrite : ∀ i < block.length, Local (.write .msgBuf (0 + i)) := by
    intro i hi
    have hin : 0 + i < 4096 := by omega
    exact ⟨by decide, hin⟩
  refine ((Does.writeBlock hwrite).weaken hP).bind ?_
  rintro - t₁ h₁
  split_ifs with hshort
  · exact Does.pure (hret t₁)
  rw [msgHeaderSize] at hshort
  have htype : t₁.mem .msgBuf 1 = block[1] := by
    rw [h₁, Function.update_self]
    have := store_of_inside (m := s.mem .msgBuf) (a := 0) 1 (by omega : 1 < block.length)
    rwa [Nat.zero_add] at this
  have hread : Local (.read .msgBuf 1) := ⟨by decide, by decide⟩
  refine ((Does.readByte hread).weaken hP).bind ?_
  rintro msgType t₂ ⟨rfl, -⟩
  refine ((header_spec (by norm_num)).weaken hP).bind ?_
  rintro fs t₃ -
  refine ((header_spec (by norm_num)).weaken hP).bind ?_
  rintro bs t₄ -
  refine ((header_spec (by norm_num)).weaken hP).bind ?_
  rintro len t₅ -
  split_ifs with hkind
  · refine hbulk ?_ len t₅
    rw [← hkind, htype, List.getElem?_eq_getElem]
  · exact hnormal ..
  · exact hnormal ..

/-- **The dispatch of a block**, whatever it holds. -/
lemma dispatch_safe (bulk : Server.Env) (text : TextEnv) {block : List UInt8}
    (hblock : block.length ≤ 4096) (hlog : s.log = []) :
    Safe block (ch0Dispatch bulk text block s).1 (ch0Dispatch bulk text block s).2 := by
  refine .of_does ?_ ?_ hlog
  · refine dispatch_spec bulk text hblock (fun _ => Local.inside) (fun _ _ h => by cases h) ?_ ?_
    · exact fun _ len t => processBulk_inside bulk len
    · exact fun _ _ _ _ t => (normalMessage_spec.weaken fun _ => Local.inside).mono
        fun _ _ h => h.2
  · intro hsmall
    refine ⟨fun _ _ => True, dispatch_spec bulk text hblock (fun _ h => h) (fun _ => trivial) ?_ ?_⟩
    · exact fun hbulk => absurd hbulk hsmall
    · exact fun _ _ _ _ t => normalMessage_spec.mono fun _ _ _ => trivial

lemma length_dequeueLocked (m : Mem) (queue maxLen virtBase : ℕ) :
    (dequeueLocked m queue maxLen virtBase).2.1.length ≤ maxLen := by
  rw [dequeueLocked]
  split_ifs with hempty hlen
  · exact Nat.zero_le _
  · rw [length_load]
  · rw [length_load]
    exact not_lt.mp hlen

/-- What is copied out of the queue fits the buffer. -/
lemma length_shmReadBuffer {ctx : ChannelContext} {maxLen : ℕ} {m m' : Mem} {code : HyperampRet}
    {block : List UInt8} (h : shmReadBuffer (some ctx) true maxLen m = some (code, block, m')) :
    block.length ≤ maxLen := by
  have hnil : some (HyperampRet.error, ([] : List UInt8), m) = some (code, block, m') →
      block.length ≤ maxLen := by
    rintro ⟨⟩
    exact Nat.zero_le _
  unfold shmReadBuffer at h
  dsimp only at h
  by_cases hinit : ctx.initialized = false ∨ true = false
  · rw [if_pos hinit] at h
    exact hnil h
  rw [if_neg hinit, hyperampQueueDequeue] at h
  by_cases hqueue : ctx.rxQueue = 0 ∨ true = false ∨ maxLen = 0
  · rw [if_pos hqueue] at h
    exact hnil h
  rw [if_neg hqueue] at h
  cases hlock : hyperampSpinlockLock m (queueLock ctx.rxQueue) zoneIdSel4 with
  | none =>
      rw [hlock] at h
      cases h
  | some locked =>
      rw [hlock] at h
      have hblock : (dequeueLocked locked ctx.rxQueue maxLen ctx.dataRegion).2.1 = block :=
        congrArg (fun r => r.2.1) (Option.some.inj h)
      rw [← hblock]
      exact length_dequeueLocked ..

/-- **Every call is safe.** -/
theorem message_safe (ctx : Option ChannelContext) (bulk : Server.Env) (text : TextEnv)
    (arrays : Buf → Mem) (m : Mem) : MessageSafe ctx bulk text arrays m := by
  unfold MessageSafe ch0ProcessMessage
  cases ctx with
  | none => exact .of_ret rfl
  | some ctx =>
      dsimp only
      split_ifs
      · exact .of_ret rfl
      · cases h : shmReadBuffer (some ctx) true 4096 m with
        | none => exact trivial
        | some r =>
            obtain ⟨code, block, m'⟩ := r
            have hdequeued : dequeued (some ctx) m = block := by rw [dequeued, h]
            rw [hdequeued]
            cases code with
            | ok => exact dispatch_safe bulk text (length_shmReadBuffer h) rfl
            | _ => exact .of_ret rfl

end Call

end Ch0
