import Sel4Test.Monkey.Session

/-!
The state of a session over its calls, `mnemosyne_sess_connect_by_addrstr_devid` of
`mnemosyne_api.cc`.

A connect closes the session of the bridge, creates a new one, says hello, authenticates
and gets a block, and it returns early when a step fails. `connected` is set after the
authentication and taken back only where the block is refused; `hasBlock` is never taken
back. So a connect that fails on a session that was connected leaves flags that are about
a connection that is gone.

A step of the connect that goes to the other side may have any result; the results are
part of the call. The sessions of the bridge are numbered in the order in which they are
created, and `blockLink` is the number of the one on which `blockId` was obtained; the
source has neither of the two.

* `step_sound_iff`: a call leaves a sound state sound if and only if it is not a failing
  connect of a session that is connected.
* `session_sound`: so the states of a run without such calls are sound.
* `reconnect_stale`: a run that is not.
-/

namespace Monkey

open Dialogue Dialogue.Prog Exec

/-! ### State -/

/-- `MNEMOSYNE_ROLE_ALLOC` and `MNEMOSYNE_ROLE_REF`. -/
inductive Role
  | alloc
  | ref
  deriving DecidableEq, Repr

/-- A session of the bridge, and how far its handshake is. -/
structure Link where
  number : ℕ
  hello : Bool
  auth : Bool
  deriving DecidableEq, Repr

/-- A session of the interface, the endpoint of its client, and the bridge. -/
structure Mnemosyne where
  session : Session
  ip : List UInt8
  port : UInt16
  link : Option Link
  links : ℕ
  blockLink : Option ℕ

namespace Mnemosyne

variable (s : Mnemosyne)

/-- `connected` and `hasBlock` are about the session of the bridge: it has completed
hello and authentication, and `blockId` was obtained on it. -/
structure Sound : Prop where
  connected : s.session.connected = true →
    ∃ link, s.link = some link ∧ link.hello = true ∧ link.auth = true
  hasBlock : s.session.hasBlock = true → s.session.connected = true ∧
    ∃ link, s.link = some link ∧ s.blockLink = some link.number

/-- `client.close()`. -/
def close : Mnemosyne := { s with link := none }

/-- `bridge.connect()`, after which there is a new session or none. -/
def bridgeConnect (ok : Bool) : Mnemosyne :=
  if ok then { s with link := some ⟨s.links, false, false⟩, links := s.links + 1 } else s.close

/-- The hello of the present session is complete. -/
def helloDone : Mnemosyne := { s with link := s.link.map fun l => { l with hello := true } }

/-- The authentication of the present session is complete. -/
def authDone : Mnemosyne := { s with link := s.link.map fun l => { l with auth := true } }

/-- `sess->connected = b`. -/
def setConnected (b : Bool) : Mnemosyne := { s with session := { s.session with connected := b } }

/-- `sess->blockId = bid` and `sess->hasBlock = true`. -/
def setBlock (bid : Int64) : Mnemosyne :=
  { s with
    session := { s.session with blockId := bid, hasBlock := true }
    blockLink := s.link.map Link.number }

end Mnemosyne

/-! ### Connect -/

/-- The digits of a port up to `0xFFFF`. -/
def parsePort : ℕ → List UInt8 → Option ℕ
  | p, [] => some p
  | p, c :: cs =>
      if c < 0x30 ∨ 0x39 < c then none
      else
        let p := p * 10 + (c.toNat - 0x30)
        if 0xFFFF < p then none else parsePort p cs

/-- `parseIpPort` with room for 64 bytes of the address: the text up to the first colon,
and a port that is not 0. -/
def parseIpPort (str : List UInt8) : Option (List UInt8 × UInt16) :=
  let ip := str.takeWhile (· ≠ 0x3A)
  match str.drop ip.length with
  | [] => none
  | _ :: digits =>
      if ip = [] ∨ 64 ≤ ip.length then none
      else
        match parsePort 0 digits with
        | none => none
        | some p => if p = 0 then none else some (ip, UInt16.ofNat p)

/-- `MNEMOSYNE_PROTO_TCP`. -/
def protoTcp : ℤ := 1

/-- The arguments of a connect; a null or empty `addrStr` keeps the endpoint. The device
is passed on to the bridge. -/
structure ConnectArgs where
  proto : ℤ
  addrStr : List UInt8
  devId : UInt16
  deriving DecidableEq, Repr

/-- The results of the steps of a connect: of `bridge.connect`, `hello`, `auth`, and
`tryAlloc` or `refBlock`. -/
structure Answers where
  bridge : Bool
  hello : Status
  auth : Status
  block : Except Status Int64

/-- The endpoint for a connect, if the arguments are accepted. -/
def endpoint (s : Mnemosyne) (args : ConnectArgs) : Except ℤ (List UInt8 × UInt16) :=
  if s.session.client = false then .error (-1)
  else if args.proto ≠ protoTcp then .error (-2)
  else if args.addrStr = [] then .ok (s.ip, s.port)
  else
    match parseIpPort args.addrStr with
    | none => .error (-3)
    | some e => .ok e

/-- The last step of a connect: the block is allocated or referenced. -/
def acquireBlock (role : Role) (s : Mnemosyne) (answers : Answers) : ℤ × Mnemosyne :=
  match answers.block with
  | .error _ => (if role = .alloc then -7 else -8, s.close.setConnected false)
  | .ok bid => (0, s.setBlock bid)

/-- A connect after the checks of its arguments. -/
def handshake (role : Role) (s : Mnemosyne) (answers : Answers) : ℤ × Mnemosyne :=
  let s := s.close.bridgeConnect answers.bridge
  if answers.bridge = false then (-4, s)
  else if answers.hello ≠ .success then (-5, s.close)
  else
    let s := s.helloDone
    if answers.auth ≠ .success then (-6, s.close)
    else acquireBlock role (s.authDone.setConnected true) answers

/-- `mnemosyne_sess_connect_by_addrstr_devid`. -/
def connect (role : Role) (s : Mnemosyne) (args : ConnectArgs) (answers : Answers) :
    ℤ × Mnemosyne :=
  match endpoint s args with
  | .error code => (code, s)
  | .ok (ip, port) => handshake role { s with ip, port } answers

/-- Every step succeeds. -/
def Answers.Succeed (a : Answers) : Prop :=
  a.bridge = true ∧ a.hello = .success ∧ a.auth = .success ∧ ∃ bid, a.block = .ok bid

/-! ### Runs -/

/-- A call on a session. -/
inductive Call
  | connect (args : ConnectArgs) (answers : Answers)
  | send (data : Option (List UInt8))
  | recv (buf : Bool) (size : ℕ)
  | sendPlainText (text : List UInt8)

/-- A call. `mnemosyne_sess_send_plain_text` does not write to the session. -/
inductive Step (role : Role) : Mnemosyne → Call → Mnemosyne → Prop
  | connect {s args answers} :
      Step role s (.connect args answers) (Monkey.connect role s args answers).2
  | send {s data ret session} (h : CanEnd (s.session.send data) (ret, session)) :
      Step role s (.send data) { s with session }
  | recv {s buf size ret bytes session}
      (h : CanEnd (s.session.recv buf size) (ret, bytes, session)) :
      Step role s (.recv buf size) { s with session }
  | sendPlainText {s text} : Step role s (.sendPlainText text) s

/-- The call is not a connect that is accepted and fails although the session is
connected. -/
def NoFailedReconnect (s : Mnemosyne) : Call → Prop
  | .connect args answers =>
      (∃ code, endpoint s args = .error code) ∨ answers.Succeed ∨ s.session.connected = false
  | _ => True

variable {role : Role} {s s' : Mnemosyne} {answers : Answers} {args : ConnectArgs}

/-! ### The other calls -/

/-- Flags and block of a session. -/
def SameBlock (sess sess' : Session) : Prop :=
  sess'.connected = sess.connected ∧ sess'.hasBlock = sess.hasBlock ∧ sess'.blockId = sess.blockId

lemma SameBlock.refl (sess : Session) : SameBlock sess sess := ⟨rfl, rfl, rfl⟩

/-- Neither flags nor block are written by `mnemosyne_sess_send`. -/
lemma every_send (sess : Session) (data : Option (List UInt8)) :
    Every (sess.send data) fun r => SameBlock sess r.2 := by
  have hsame (code : ℤ) : Every (β := UInt8) (done (ApiRet.returns code, sess)) fun r =>
      SameBlock sess r.2 := every_done (SameBlock.refl sess)
  by_cases hsess : sess.Usable
  · cases data with
    | none => simpa [Session.send, hsess] using hsame (-2)
    | some data =>
        by_cases hne : data = []
        · simpa [Session.send, hsess, hne] using hsame (-2)
        · by_cases hlen : data.length ≤ blockSize
          · rw [Session.send_eq hsess hne hlen]
            apply every_bind
            rintro (ret | _)
            · exact every_done ⟨rfl, rfl, rfl⟩
            · exact every_done ⟨rfl, rfl, rfl⟩
          · simpa [Session.send, hsess, hne, hlen] using hsame (-3)
  · simpa [Session.send, hsess] using hsame (-1)

/-- Nor by `mnemosyne_sess_recv`. -/
lemma every_recv (sess : Session) (buf : Bool) (size : ℕ) :
    Every (sess.recv buf size) fun r => SameBlock sess r.2.2 := by
  have hsame (code : ℤ) : Every (β := UInt8) (done (ApiRet.returns code, ([] : List UInt8), sess))
      fun r => SameBlock sess r.2.2 := every_done (SameBlock.refl sess)
  by_cases hsess : sess.Usable
  · by_cases hbuf : buf = false ∨ size = 0
    · simpa [Session.recv, hsess, hbuf] using hsame (-2)
    · push Not at hbuf
      obtain ⟨hptr, hsize⟩ := hbuf
      obtain rfl : buf = true := by simpa using hptr
      rw [Session.recv_eq hsess hsize]
      apply every_bind
      rintro (ret | ⟨block, ver⟩)
      · exact every_done (SameBlock.refl sess)
      · by_cases hblock : block.length = blockSize
        · simp only [dif_pos hblock]
          exact every_done ⟨rfl, rfl, rfl⟩
        · simp only [dif_neg hblock]
          exact every_done (SameBlock.refl sess)
  · simpa [Session.recv, hsess] using hsame (-1)

/-- What is said of flags and block stays true. -/
lemma Mnemosyne.Sound.congr {session : Session} (h : s.Sound)
    (hsame : SameBlock s.session session) : Mnemosyne.Sound { s with session } := by
  obtain ⟨hconn, hblock, -⟩ := hsame
  constructor
  · intro hc
    exact h.connected (hconn.symm.trans hc)
  · intro hb
    have hs := h.hasBlock (hblock.symm.trans hb)
    exact ⟨hconn.trans hs.1, hs.2⟩

/-! ### Connect -/

/-- A connect whose steps all succeed leaves a sound state. -/
lemma handshake_succeed (role : Role) (s : Mnemosyne) (hsucceed : answers.Succeed) :
    (handshake role s answers).2.Sound ∧
      (handshake role s answers).2.session.hasBlock = true := by
  obtain ⟨hbridge, hhello, hauth, bid, hblock⟩ := hsucceed
  have heq : handshake role s answers = (0, (((s.close.bridgeConnect true).helloDone.authDone
      ).setConnected true).setBlock bid) := by
    simp [handshake, acquireBlock, hbridge, hhello, hauth, hblock]
  rw [heq]
  refine ⟨⟨fun _ => ⟨⟨s.links, true, true⟩, rfl, rfl, rfl⟩, fun _ => ⟨rfl, ?_⟩⟩, rfl⟩
  exact ⟨⟨s.links, true, true⟩, rfl, rfl⟩

/-- One that fails leaves no session of the bridge; the block is kept, and `connected` is
kept or taken back. -/
lemma handshake_fail (role : Role) (s : Mnemosyne) (hfail : ¬ answers.Succeed) :
    (handshake role s answers).2.link = none ∧
      (handshake role s answers).2.session.hasBlock = s.session.hasBlock ∧
      ((handshake role s answers).2.session.connected = s.session.connected ∨
        (handshake role s answers).2.session.connected = false) := by
  cases hbridge : answers.bridge with
  | false =>
      have heq : handshake role s answers = (-4, s.close.bridgeConnect false) := by
        simp [handshake, hbridge]
      rw [heq]
      exact ⟨rfl, rfl, .inl rfl⟩
  | true =>
      by_cases hhello : answers.hello = .success
      · by_cases hauth : answers.auth = .success
        · cases hblock : answers.block with
          | ok bid => exact absurd ⟨hbridge, hhello, hauth, bid, hblock⟩ hfail
          | error status =>
              have hstate : (handshake role s answers).2 = (((s.close.bridgeConnect true).helloDone
                  ).authDone.setConnected true).close.setConnected false := by
                simp [handshake, acquireBlock, hbridge, hhello, hauth, hblock]
              rw [hstate]
              exact ⟨rfl, rfl, .inr rfl⟩
        · have heq : handshake role s answers =
              (-6, (s.close.bridgeConnect true).helloDone.close) := by
            simp [handshake, hbridge, hhello, hauth]
          rw [heq]
          exact ⟨rfl, rfl, .inl rfl⟩
      · have heq : handshake role s answers = (-5, (s.close.bridgeConnect true).close) := by
          simp [handshake, hbridge, hhello]
        rw [heq]
        exact ⟨rfl, rfl, .inl rfl⟩

/-- Without a session of the bridge a state is sound if no flag is set. -/
lemma sound_of_link_none (hlink : s.link = none) :
    s.Sound ↔ s.session.connected = false ∧ s.session.hasBlock = false := by
  constructor
  · intro h
    constructor
    · by_contra hconn
      obtain ⟨link, hsome, -⟩ := h.connected (by simpa using hconn)
      rw [hlink] at hsome
      cases hsome
    · by_contra hblock
      obtain ⟨link, hsome, -⟩ := (h.hasBlock (by simpa using hblock)).2
      rw [hlink] at hsome
      cases hsome
  · rintro ⟨hconn, hblock⟩
    exact ⟨fun h => by simp [hconn] at h, fun h => by simp [hblock] at h⟩

/-- The invariant: the state is sound, and a connected session has a block. -/
structure SessionInv (s : Mnemosyne) : Prop where
  sound : s.Sound
  block : s.session.connected = true → s.session.hasBlock = true

/-- **One call** leaves a sound state if and only if it is not a connect that fails
although the session is connected, and then keeps the invariant. -/
lemma step_sound_iff {call : Call} (h : SessionInv s) (hstep : Step role s call s') :
    (s'.Sound ↔ NoFailedReconnect s call) ∧ (NoFailedReconnect s call → SessionInv s') := by
  cases hstep with
  | send hend =>
      have hsame := (every_send _ _).of_canEnd hend
      have hinv : SessionInv { s with session := _ } :=
        ⟨h.sound.congr hsame, fun hc => hsame.2.1.trans (h.block (hsame.1.symm.trans hc))⟩
      exact ⟨iff_of_true hinv.sound trivial, fun _ => hinv⟩
  | recv hend =>
      have hsame := (every_recv _ _ _).of_canEnd hend
      have hinv : SessionInv { s with session := _ } :=
        ⟨h.sound.congr hsame, fun hc => hsame.2.1.trans (h.block (hsame.1.symm.trans hc))⟩
      exact ⟨iff_of_true hinv.sound trivial, fun _ => hinv⟩
  | sendPlainText => exact ⟨iff_of_true h.sound trivial, fun _ => h⟩
  | @connect args answers =>
      rw [connect]
      cases hend : endpoint s args with
      | error code => exact ⟨iff_of_true h.sound (.inl ⟨code, hend⟩), fun _ => h⟩
      | ok e =>
          obtain ⟨ip, port⟩ := e
          by_cases hsucceed : answers.Succeed
          · obtain ⟨hsound, hblock⟩ :=
              handshake_succeed role { s with ip, port } hsucceed
            exact ⟨iff_of_true hsound (.inr (.inl hsucceed)), fun _ => ⟨hsound, fun _ => hblock⟩⟩
          · obtain ⟨hlink, hblock, hconn⟩ :=
              handshake_fail role { s with ip, port } hsucceed
            have hgood : NoFailedReconnect s (.connect args answers) ↔
                s.session.connected = false := by
              constructor
              · rintro (⟨code, hcode⟩ | hyes | hno)
                · rw [hend] at hcode
                  cases hcode
                · exact absurd hyes hsucceed
                · exact hno
              · exact fun hno => .inr (.inr hno)
            rw [hgood, sound_of_link_none hlink]
            cases hold : s.session.connected with
            | true =>
                -- the block of the old connection is kept
                have hstale : (handshake role { s with ip, port } answers).2.session.hasBlock = true :=
                  hblock.trans (h.block hold)
                refine ⟨iff_of_false (fun hno => ?_) (by simp), fun hno => by simp at hno⟩
                rw [hno.2] at hstale
                cases hstale
            | false =>
                have hnone : s.session.hasBlock = false := by
                  by_contra hyes
                  have hconnected := (h.sound.hasBlock (by simpa using hyes)).1
                  rw [hold] at hconnected
                  cases hconnected
                have hflags : (handshake role { s with ip, port } answers).2.session.connected =
                    false ∧ (handshake role { s with ip, port } answers).2.session.hasBlock =
                    false :=
                  ⟨hconn.elim (fun heq => heq.trans hold) id, hblock.trans hnone⟩
                refine ⟨iff_of_true hflags rfl, fun _ => ⟨(sound_of_link_none hlink).mpr hflags, ?_⟩⟩
                intro hyes
                rw [hflags.1] at hyes
                cases hyes

/-- A session of `mnemosyne_sess_new`, whatever the bridge is doing. -/
def Mnemosyne.New (s : Mnemosyne) : Prop :=
  s.session.connected = false ∧ s.session.hasBlock = false

/-- **Runs.** In a run from a new session in which no connect fails while the session is
connected, `connected` and `hasBlock` are about the session of the bridge in every
state; and from each of these states a call leads to a sound one only if it is not such
a connect. -/
theorem session_sound (role : Role) (s₀ s : Mnemosyne) (calls : List Call) (hnew : s₀.New)
    (hrun : Runs (Guarded NoFailedReconnect (Step role)) s₀ calls s) :
    s.Sound ∧ ∀ call s', Step role s call s' → (s'.Sound ↔ NoFailedReconnect s call) := by
  have hstart : SessionInv s₀ := by
    refine ⟨⟨fun h => ?_, fun h => ?_⟩, fun h => ?_⟩
    · rw [hnew.1] at h
      cases h
    · rw [hnew.2] at h
      cases h
    · rw [hnew.1] at h
      cases h
  have hinv : SessionInv s :=
    hrun.invariant SessionInv
      (fun _ _ _ h hstep => (step_sound_iff h hstep.2).2 hstep.1) hstart
  exact ⟨hinv.sound, fun call s' hstep => (step_sound_iff hinv hstep).1⟩

/-- A new session. -/
def newSession : Mnemosyne where
  session := ⟨true, -1, false, false, List.replicate blockSize 0, List.length_replicate ..⟩
  ip := []
  port := 0
  link := none
  links := 0
  blockLink := none

/-- A connect to the endpoint of the engine. -/
def defaultArgs : ConnectArgs := ⟨protoTcp, [], 0xFF⟩

/-- All steps succeed, with block 5. -/
def allSucceed : Answers := ⟨true, .success, .success, .ok 5⟩

/-- The bridge does not connect. -/
def bridgeFails : Answers := ⟨false, .success, .success, .ok 5⟩

/-- A connect that is refused and one that succeeds. -/
theorem session_sound_connected :
    ∃ s, Runs (Guarded NoFailedReconnect (Step .alloc)) newSession
        [.connect defaultArgs bridgeFails, .connect defaultArgs allSucceed] s ∧
      s.session.connected = true ∧ s.session.hasBlock = true ∧ s.Sound := by
  have hfirst : NoFailedReconnect newSession (.connect defaultArgs bridgeFails) := .inr (.inr rfl)
  have hsecond : NoFailedReconnect (connect .alloc newSession defaultArgs bridgeFails).2
      (.connect defaultArgs allSucceed) := .inr (.inl ⟨rfl, rfl, rfl, 5, rfl⟩)
  have hrun : Runs (Guarded NoFailedReconnect (Step .alloc)) newSession
      [.connect defaultArgs bridgeFails, .connect defaultArgs allSucceed] _ :=
    .cons ⟨hfirst, .connect⟩ (.cons ⟨hsecond, .connect⟩ .nil)
  exact ⟨_, hrun, rfl, rfl, (session_sound .alloc newSession _ _ ⟨rfl, rfl⟩ hrun).1⟩

/-- A reconnect that the bridge refuses: the session still counts as connected and as
having a block, and the bridge has no session. -/
theorem reconnect_stale :
    ∃ s, Runs (Step .alloc) newSession
        [.connect defaultArgs allSucceed, .connect defaultArgs bridgeFails] s ∧
      s.session.connected = true ∧ s.session.hasBlock = true ∧ s.link = none ∧ ¬ s.Sound := by
  have hrun : Runs (Step .alloc) newSession
      [.connect defaultArgs allSucceed, .connect defaultArgs bridgeFails] _ :=
    .cons .connect (.cons .connect .nil)
  refine ⟨_, hrun, rfl, rfl, rfl, fun h => ?_⟩
  obtain ⟨link, hlink, -⟩ := h.connected rfl
  cases hlink

end Monkey
