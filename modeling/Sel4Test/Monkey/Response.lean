import Sel4Test.Monkey.Message

/-!
Responses, `sendResponse` and `recvResponse` of
`monkey/net/protocol/Protocol1Connection.cc`.

The data of a response is a code, the length of a text and the text, and after it
perhaps more data. The two numbers are in network byte order. `sendResponse` does not
look whether the array it builds the data in was allocated, and `recvResponse` reads the
numbers without a look at the length of the message; an array that is missing and a
response that is too short have no defined result.
-/

namespace Monkey

open ByteMem Dialogue Dialogue.Prog

/-- What a call comes to: a status, or undefined behaviour. -/
inductive Ret
  | returns (status : Status)
  | undefined
  deriving DecidableEq, Repr

/-- `protocol::Response` in host byte order; `msg` are all the bytes after `msgLen`. -/
structure Response where
  code : UInt32
  msgLen : UInt32
  msg : List UInt8
  deriving DecidableEq, Repr

/-- The data of a response with the text `msg`, followed by `paimon`. -/
def responseData (code : UInt32) (msg paimon : List UInt8) : List UInt8 :=
  toBE 4 code.toNat ++ toBE 4 (UInt32.ofNat msg.length).toNat ++ msg ++ paimon

/-- The status of a call that has one. -/
def status (p : Prog UInt8 Status) : Prog UInt8 Ret := do
  return .returns (← p)

/-- Memory is needed first; without it the call comes to `ret`. -/
def withMemory (ret : Ret) (p : Prog UInt8 Ret) : Prog UInt8 Ret := do
  if ← new then p else return ret

/-- `sendResponse`. The forms without `paimon` are those with an empty one. -/
def sendResponse (code : UInt32) (msg paimon : List UInt8) : Prog UInt8 Ret :=
  withMemory .undefined (status (sendMsg MsgType.response (responseData code msg paimon)))

/-- The message as a response. -/
def Msg.toResponse? (m : Msg) : Option Response :=
  if m.data.length < 8 then none
  else some ⟨UInt32.ofNat (ofBE (m.data.take 4)), UInt32.ofNat (ofBE ((m.data.drop 4).take 4)),
    m.data.drop 8⟩

/-- `recvResponse`. -/
def recvResponse : Prog UInt8 (Except Ret Response) := do
  match ← recvMsg MsgType.response with
  | .error status => return .error (.returns status)
  | .ok msg =>
      match msg.toResponse? with
      | none => return .error .undefined
      | some response => return .ok response

/-- The message of `sendResponse`. -/
def responseMsg (code : UInt32) (msg paimon : List UInt8) : Msg :=
  ⟨MsgType.response, responseData code msg paimon⟩

lemma length_responseData (code : UInt32) (msg paimon : List UInt8) :
    (responseData code msg paimon).length = 8 + msg.length + paimon.length := by
  simp only [responseData, List.length_append, length_toBE]

/-- The fields of a response are read as they were written. -/
lemma toResponse?_responseMsg (code : UInt32) (msg paimon : List UInt8) :
    (responseMsg code msg paimon).toResponse? =
      some ⟨code, UInt32.ofNat msg.length, msg ++ paimon⟩ := by
  have hlen := length_responseData code msg paimon
  have hcode : (responseData code msg paimon).take 4 = toBE 4 code.toNat := by
    rw [responseData, List.append_assoc, List.append_assoc, List.take_left' (length_toBE _ _)]
  have hmsgLen : ((responseData code msg paimon).drop 4).take 4 =
      toBE 4 (UInt32.ofNat msg.length).toNat := by
    rw [responseData, List.append_assoc, List.append_assoc, List.drop_left' (length_toBE _ _),
      List.take_left' (length_toBE _ _)]
  have hmsg : (responseData code msg paimon).drop 8 = msg ++ paimon := by
    rw [responseData, List.append_assoc, List.drop_left' (by simp)]
  have hlong : ¬ (responseData code msg paimon).length < 8 := by omega
  simp only [Msg.toResponse?, responseMsg, if_neg hlong, hcode, hmsgLen, hmsg, ofBE_toBE_u32]

variable {F : Faults} {S rest : List UInt8}

lemma wp_status {p : Prog UInt8 Status} {Q : Option Ret → List UInt8 → List UInt8 → Prop}
    (h : wp F p S fun r rest out => Q (r.map .returns) rest out) : wp F (status p) S Q := by
  apply wp_bind
  refine wp_mono h ?_
  rintro (_ | r) rest out hr
  · exact hr
  · simpa [wp] using hr

lemma wp_sendResponse {Q : Option Ret → List UInt8 → List UInt8 → Prop} (hF : ¬ F.send)
    (hmem : ¬ F.alloc) {code : UInt32} {msg paimon : List UInt8}
    (hlen : msg.length + paimon.length < 2 ^ 63)
    (h : Q (some (.returns .success)) S (frame (responseMsg code msg paimon))) :
    wp F (sendResponse code msg paimon) S Q := by
  apply wp_bind
  apply wp_new
  · apply wp_status
    apply wp_sendMsg hF (responseMsg code msg paimon) ?_ h
    rw [responseMsg, length_responseData]
    simp only [headerSize]
    omega
  · exact fun hfail => absurd hfail hmem

lemma wp_recvResponse {Q : Option (Except Ret Response) → List UInt8 → List UInt8 → Prop}
    (hF : ¬ F.recv) (hmem : ¬ F.alloc) {code : UInt32} {msg paimon : List UInt8}
    (hlen : msg.length + paimon.length < 2 ^ 63)
    (h : Q (some (.ok ⟨code, UInt32.ofNat msg.length, msg ++ paimon⟩)) rest []) :
    wp F recvResponse (frame (responseMsg code msg paimon) ++ rest) Q := by
  apply wp_bind
  apply wp_recvMsg hF (responseMsg code msg paimon) ?_ (.inr rfl)
  · simp only [toResponse?_responseMsg]
    exact h
  · exact fun hfail => absurd hfail hmem
  · rw [responseMsg, length_responseData]
    omega

end Monkey
