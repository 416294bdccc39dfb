import Sel4Test.Adl.TString
import Sel4Test.Monkey.Message
import Sel4Test.Monkey.PlainChar

/-!
Plain text, `sendPlainText` and `decodePlainText` of
`monkey/net/protocol/Protocol2Connection.cc`.

The decoder gets a pointer to the string it should fill. It clears the string, and for every
byte of the message it adds the byte to the pointer, where it should append it to the string.
So its variable `text` is part of the model, and strings have addresses.

* `decodePlainText_eq`: the decoder leaves an empty string.
* `plainText_roundTrips_iff`: only the empty text comes through.
-/

namespace Monkey

open Adl Dialogue Dialogue.Prog PlainChar

/-- The code of a plain text. -/
def MsgType.plainText : MsgType := 0xAF00

/-- `sendPlainText`. -/
def sendPlainText (text : TString) : Prog UInt8 Status := sendMsg MsgType.plainText text

/-- The variable `text` of `decodePlainText`, and the strings by their addresses. -/
structure TextState where
  text : ℤ
  strings : ℤ → TString

/-- The size of a `TString`. -/
def sizeofTString : ℤ := 32

/-- `text += (char) b`, on a pointer. -/
def TextState.add (c : Signedness) (st : TextState) (b : UInt8) : TextState :=
  { st with text := st.text + c.read b * sizeofTString }

/-- `decodePlainText`. -/
def decodePlainText (c : Signedness) (msg : Msg) (text : Option ℤ) (strings : ℤ → TString) :
    Status × (ℤ → TString) :=
  text.elim (.invalidParameters, strings) fun p =>
    let st : TextState := ⟨p, Function.update strings p []⟩
    (.success, (msg.data.foldl (TextState.add c) st).strings)

/-- The program sends the message whenever it succeeds. -/
def Sends (p : Prog UInt8 Status) (m : Msg) : Prop :=
  ∀ F S, wp F p S fun r _ out => r = some .success → out = frame m

/-- What `sendPlainText` sends is decoded as the text, whatever the string held before. -/
def RoundTrips (text : TString) : Prop :=
  ∀ c m, Sends (sendPlainText text) m → ∀ strings p,
    (decodePlainText c m (some p) strings).1 = .success ∧
      (decodePlainText c m (some p) strings).2 p = text

/-- The message with the text. -/
def plainTextMsg (text : TString) : Msg := ⟨MsgType.plainText, text⟩

lemma sends_plainText {text : TString} (hlen : headerSize + text.length < 2 ^ 64) :
    Sends (sendPlainText text) (plainTextMsg text) := by
  intro F S
  refine wp_mono (sendMsg_spec (plainTextMsg text) hlen) ?_
  rintro _ _ out ⟨-, status, rfl, hiff⟩ hsuccess
  exact hiff.mp (Option.some.inj hsuccess)

/-- Moving the pointer changes no string. -/
lemma strings_foldl_add (c : Signedness) (bs : List UInt8) (st : TextState) :
    (bs.foldl (TextState.add c) st).strings = st.strings := by
  induction bs generalizing st with
  | nil => rfl
  | cons b bs ih => exact ih _

/-- **The decoder clears the string**, and does no more. -/
lemma decodePlainText_eq (c : Signedness) (msg : Msg) (p : ℤ) (strings : ℤ → TString) :
    decodePlainText c msg (some p) strings = (.success, Function.update strings p []) :=
  congrArg (Prod.mk Status.success) (strings_foldl_add c msg.data ⟨p, Function.update strings p []⟩)

/-- A text that comes through is empty. -/
lemma RoundTrips.eq_nil {text : TString} (h : RoundTrips text)
    (hlen : headerSize + text.length < 2 ^ 64) : text = [] := by
  obtain ⟨-, htext⟩ := h .unsigned _ (sends_plainText hlen) (fun _ => []) 0
  have hcleared : (decodePlainText .unsigned (plainTextMsg text) (some 0) fun _ => []).2 0 = [] := by
    rw [decodePlainText_eq]
    show Function.update (fun _ : ℤ => ([] : TString)) 0 [] 0 = []
    rw [Function.update_self]
  exact htext.symm.trans hcleared

/-- **Only the empty text comes through.** -/
theorem plainText_roundTrips_iff {text : TString} (hlen : headerSize + text.length < 2 ^ 64) :
    RoundTrips text ↔ text = [] := by
  constructor
  · exact fun h => h.eq_nil hlen
  · rintro rfl c m - strings p
    rw [decodePlainText_eq]
    exact ⟨rfl, Function.update_self ..⟩

/-- The empty text does. -/
theorem plainText_roundTrips_nil : RoundTrips [] :=
  (plainText_roundTrips_iff (by decide)).mpr rfl

/-- The text `a` does not. -/
theorem plainText_lost : ¬ RoundTrips [0x61] := by
  intro h
  have hnil := h.eq_nil (by decide)
  cases hnil

end Monkey
