import Mathlib.Data.List.Basic

/-!
# DNS messages as the forwarder reads them

The forwarder looks at a datagram through a handful of byte-level readers: the length and the hash
of the first question, the transaction id and the response bit. They are embedded here under the
names of `dns_forwarder.c`. A buffer is a list of bytes together with the number `len` of bytes that
were received into it, and a read past the list yields `0`.

Beside them stands `question`, which is not translated from the source: it is the question section
of a message as the wire format lays it out, QNAME, QTYPE and QCLASS, each as far as the message
holds it. It is what two messages have in common when they ask the same thing.
-/

namespace HalowBridge.Dns

/-! ## Readers of the forwarder -/

/-- The label walk of `dns_question_len`, at index `i`. -/
def questionWalk (buf : List UInt8) (len i : ℕ) : ℕ :=
  if i < len then
    if buf.getD i 0 = 0 then (i - 12) + 1 + 4
    else if buf.getD i 0 &&& 0xC0 = 0xC0 then 2 + 4
    else questionWalk buf len (i + (1 + (buf.getD i 0).toNat))
  else 0
termination_by len - i

def dnsQuestionLen (buf : List UInt8) (len : ℕ) : ℕ :=
  if len < 13 then 0 else questionWalk buf len 12

def dnsQuestionHash (buf : List UInt8) (len : ℕ) : UInt32 :=
  let qlen := dnsQuestionLen buf len
  if qlen = 0 ∨ len < 12 + qlen then 0
  else ((buf.drop 12).take qlen).foldl (fun h b => h * 31 + b.toUInt32) 0

def getDnsTxid (buf : List UInt8) : UInt16 :=
  (buf.getD 0 0).toUInt16 <<< 8 ||| (buf.getD 1 0).toUInt16

def setDnsTxid (buf : List UInt8) (txid : UInt16) : List UInt8 :=
  (buf.set 0 (txid >>> 8).toUInt8).set 1 (txid &&& 0xFF).toUInt8

def isDnsResponse (buf : List UInt8) (len : ℕ) : Bool :=
  decide (12 ≤ len) && (buf.getD 2 0 &&& 0x80) != 0

/-! ## Readers only look at the received bytes -/

theorem getD_append_of_lt {xs ys : List UInt8} {i : ℕ} (inside : i < xs.length) :
    (xs ++ ys).getD i 0 = xs.getD i 0 := by
  rw [List.getD_eq_getElem?_getD, List.getElem?_append_left inside, List.getD_eq_getElem?_getD]

theorem questionWalk_append (xs ys : List UInt8) (i : ℕ) :
    questionWalk (xs ++ ys) xs.length i = questionWalk xs xs.length i := by
  induction i using questionWalk.induct xs xs.length with
  | case1 i inside zero =>
      rw [questionWalk, getD_append_of_lt inside, questionWalk.eq_def xs]
      simp only [inside, zero, ↓reduceIte]
  | case2 i inside zero pointer =>
      rw [questionWalk, getD_append_of_lt inside, questionWalk.eq_def xs]
      simp only [inside, zero, pointer, ↓reduceIte]
  | case3 i inside zero pointer ih =>
      rw [questionWalk, getD_append_of_lt inside, questionWalk.eq_def xs]
      simp only [inside, zero, pointer, ↓reduceIte, ih]
  | case4 i outside =>
      rw [questionWalk, questionWalk.eq_def xs]
      simp only [outside, ↓reduceIte]

@[simp] theorem dnsQuestionLen_append (xs ys : List UInt8) :
    dnsQuestionLen (xs ++ ys) xs.length = dnsQuestionLen xs xs.length := by
  simp only [dnsQuestionLen, questionWalk_append]

theorem take_drop_append {xs : List UInt8} (ys : List UInt8) {n k : ℕ}
    (inside : n + k ≤ xs.length) : ((xs ++ ys).drop n).take k = (xs.drop n).take k := by
  rw [List.drop_append_of_le_length (by omega), List.take_append_of_le_length (by simp; omega)]

@[simp] theorem dnsQuestionHash_append (xs ys : List UInt8) :
    dnsQuestionHash (xs ++ ys) xs.length = dnsQuestionHash xs xs.length := by
  simp only [dnsQuestionHash, dnsQuestionLen_append]
  split
  · rfl
  · rename_i fits
    rw [take_drop_append ys (by omega)]

@[simp] theorem isDnsResponse_append (xs ys : List UInt8) :
    isDnsResponse (xs ++ ys) xs.length = isDnsResponse xs xs.length := by
  by_cases header : 12 ≤ xs.length
  · rw [isDnsResponse, isDnsResponse, getD_append_of_lt (by omega)]
  · simp only [isDnsResponse, header, decide_false, Bool.false_and]

theorem getDnsTxid_append {xs : List UInt8} (ys : List UInt8) (two : 2 ≤ xs.length) :
    getDnsTxid (xs ++ ys) = getDnsTxid xs := by
  rw [getDnsTxid, getDnsTxid, getD_append_of_lt (by omega), getD_append_of_lt (by omega)]

/-- A message with the response bit has a whole header. -/
theorem header_of_isDnsResponse {buf : List UInt8} {len : ℕ} (response : isDnsResponse buf len) :
    12 ≤ len := by
  rw [isDnsResponse, Bool.and_eq_true, decide_eq_true_eq] at response
  exact response.1

/-- Fewer than 13 bytes hold no question. -/
theorem dnsQuestionLen_of_lt {buf : List UInt8} {len : ℕ} (short : len < 13) :
    dnsQuestionLen buf len = 0 := by
  rw [dnsQuestionLen, if_pos short]

/-! ## The question section -/

/-- The bytes of a domain name at the head of a list: labels up to the zero byte or up to a two-byte
compression pointer, as far as the list goes. The number is that of the bytes of the current label
still to come. -/
def qnameLen : ℕ → List UInt8 → ℕ
  | _, [] => 0
  | skip + 1, _ :: rest => qnameLen skip rest + 1
  | 0, b :: rest =>
      if b = 0 then 1
      else if b &&& 0xC0 = 0xC0 then min 2 (rest.length + 1)
      else qnameLen b.toNat rest + 1

/-- The first question of a message. -/
structure Question where
  qname : List UInt8
  qtype : List UInt8
  qclass : List UInt8
  deriving DecidableEq

/-- The question section that follows the 12-byte header. -/
def question (msg : List UInt8) : Question :=
  let body := msg.drop 12
  let n := qnameLen 0 body
  ⟨body.take n, (body.drop n).take 2, (body.drop (n + 2)).take 2⟩

@[simp] theorem length_setDnsTxid (buf : List UInt8) (txid : UInt16) :
    (setDnsTxid buf txid).length = buf.length := by
  rw [setDnsTxid, List.length_set, List.length_set]

/-- Stamping another transaction id leaves the question as it was. -/
@[simp] theorem question_setDnsTxid (buf : List UInt8) (txid : UInt16) :
    question (setDnsTxid buf txid) = question buf := by
  simp only [question, setDnsTxid, List.drop_set, Nat.reduceLT, ↓reduceIte]

end HalowBridge.Dns
