import HalowBridge.Lib.Keystream
import HalowBridge.Lib.Struct

/-!
# Key derivation

`hmac_prf_bits` and `sha1_prf` expand a key to any length: they write one MAC after the other, of
messages that differ in a counter, and the front of one more. The first has the counter in front of
the label and may use a part of the last byte only, the second has it at the end.

The digests are those of mbedTLS, as its documentation describes them: a `Digest` has a context that
collects the updates, and a keyed hash that is computed on all of them. The target is little-endian.
The codes that the functions of mbedTLS return are ignored by the code but for `mbedtls_md_setup`,
whose success is a parameter of each call.
-/

namespace HalowBridge.Crypto

open Keystream

/-- A message digest with a MAC of `macLen` bytes, `mbedtls_md_get_size`. A context is `Running`
with a key and the message so far, until it is `Finished`. -/
structure Digest (macLen : ℕ) where
  Ctx : Type
  /-- The context after `mbedtls_md_setup`. -/
  setup : Ctx
  /-- `mbedtls_md_hmac_starts` -/
  hmacStarts : Ctx → (key : List UInt8) → Ctx
  /-- `mbedtls_md_hmac_update` -/
  hmacUpdate : Ctx → (input : List UInt8) → Ctx
  /-- `mbedtls_md_hmac_finish` -/
  hmacFinish : Ctx → List UInt8 × Ctx
  /-- `mbedtls_md_hmac_reset` -/
  hmacReset : Ctx → Ctx
  hmac : (key message : List UInt8) → List UInt8
  Running : (key message : List UInt8) → Ctx → Prop
  Finished : (key : List UInt8) → Ctx → Prop
  running_starts : ∀ key, Running key [] (hmacStarts setup key)
  running_update : ∀ {key message ctx}, Running key message ctx →
    ∀ input, Running key (message ++ input) (hmacUpdate ctx input)
  finish_fst : ∀ {key message ctx}, Running key message ctx →
    (hmacFinish ctx).1 = hmac key message
  finished_finish : ∀ {key message ctx}, Running key message ctx →
    Finished key (hmacFinish ctx).2
  running_reset : ∀ {key ctx}, Finished key ctx → Running key [] (hmacReset ctx)
  length_hmac : ∀ key message, (hmac key message).length = macLen
  macLen_pos : 0 < macLen

/-- Any keyed hash of a fixed length makes a digest. -/
def Digest.ofHash {macLen : ℕ} (hash : (key message : List UInt8) → List UInt8)
    (length : ∀ key message, (hash key message).length = macLen) (pos : 0 < macLen) :
    Digest macLen where
  Ctx := List UInt8 × List UInt8
  setup := ([], [])
  hmacStarts _ key := (key, [])
  hmacUpdate ctx input := (ctx.1, ctx.2 ++ input)
  hmacFinish ctx := (hash ctx.1 ctx.2, ctx)
  hmacReset ctx := (ctx.1, [])
  hmac := hash
  Running key message ctx := ctx = (key, message)
  Finished key ctx := ctx.1 = key
  running_starts _ := rfl
  running_update := by
    rintro key message ctx rfl input
    rfl
  finish_fst := by
    rintro key message ctx rfl
    rfl
  finished_finish := by
    rintro key message ctx rfl
    rfl
  running_reset := by
    rintro key ctx rfl
    rfl
  length_hmac := length
  macLen_pos := pos

/-- The bytes of a `uint16_t`. -/
def u16Bytes (n : UInt16) : List UInt8 := packLe 2 n.toNat

section

variable {macLen : ℕ} (md : Digest macLen)

/-! ## The PRF of a number of bits -/

/-- The state of `hmac_prf_bits`: the local variables, and the memory. -/
structure PrfState where
  ctx : md.Ctx
  ctr : UInt16
  buf : ℕ
  bufLen : ℕ
  mem : ℕ → UInt8

/-- The strings `addr` points to. -/
def prfElems (label data : List UInt8) (ctr nLe : UInt16) : List (List UInt8) :=
  [u16Bytes ctr, label, data, u16Bytes nLe]

/-- The loop over the blocks that are written whole. -/
def prfLoop (label data : List UInt8) (nLe : UInt16) (s : PrfState md) : PrfState md :=
  if macLen ≤ s.bufLen then
    let (mac, ctx) := md.hmacFinish ((prfElems label data s.ctr nLe).foldl md.hmacUpdate s.ctx)
    prfLoop label data nLe
      { ctx := md.hmacReset ctx
        ctr := s.ctr + 1
        buf := s.buf + macLen
        bufLen := s.bufLen - macLen
        mem := store s.mem s.buf mac }
  else s
termination_by s.bufLen
decreasing_by
  have pos := md.macLen_pos
  show s.bufLen - macLen < s.bufLen
  omega

/-- The block that is written in part. -/
def prfTail (label data : List UInt8) (nLe : UInt16) (s : PrfState md) : PrfState md :=
  if s.bufLen ≠ 0 then
    let (hash, ctx) := md.hmacFinish ((prfElems label data s.ctr nLe).foldl md.hmacUpdate s.ctx)
    { s with
      ctx := ctx
      buf := s.buf + s.bufLen
      mem := store s.mem s.buf (hash.take s.bufLen) }
  else s

/-- `hmac_prf_bits`, with the text of the label: the result and the memory. -/
def hmacPrfBits (ready : Bool) (key label data : List UInt8) (buf bufLenBits : ℕ)
    (mem : ℕ → UInt8) : ℤ × (ℕ → UInt8) :=
  if ready then
    let nLe := UInt16.ofNat bufLenBits
    let s := prfTail md label data nLe <| prfLoop md label data nLe
      { ctx := md.hmacStarts md.setup key
        ctr := 1
        buf := buf
        bufLen := (bufLenBits + 7) / 8
        mem := mem }
    let bits := bufLenBits &&& 0x7
    if bits ≠ 0 then
      (0, store s.mem (s.buf - 1) [s.mem (s.buf - 1) &&& UInt8.ofNat (0xff <<< (8 - bits))])
    else (0, s.mem)
  else (-1, mem)

/-! ## The PRF with SHA-1 -/

/-- `hmac_vector`: the MAC, unless the result is -1. -/
def hmacVector (ready : Bool) (key : List UInt8) (elems : List (List UInt8)) :
    Option (List UInt8) :=
  if ready then some (md.hmacFinish (elems.foldl md.hmacUpdate (md.hmacStarts md.setup key))).1
  else none

end

/-- `SHA1_MAC_LEN` -/
def sha1MacLen : ℕ := 20

section

variable (sha1 : Digest sha1MacLen)

/-- `hmac_sha1_vector` -/
def hmacSha1Vector (ready : Bool) (key : List UInt8) (elems : List (List UInt8)) :
    Option (List UInt8) :=
  hmacVector sha1 ready key elems

/-- `sha1_prf` from its loop on, with the number of calls of `hmac_sha1_vector` so far. -/
def sha1PrfLoop (ready : ℕ → Bool) (key label data : List UInt8) (call : ℕ) (counter : UInt8)
    (buf bufLen : ℕ) (mem : ℕ → UInt8) : ℤ × (ℕ → UInt8) :=
  let elems := [label ++ [0], data, [counter]]
  if sha1MacLen ≤ bufLen then
    match hmacSha1Vector sha1 (ready call) key elems with
    | none => (-1, mem)
    | some mac =>
        sha1PrfLoop ready key label data (call + 1) (counter + 1) (buf + sha1MacLen)
          (bufLen - sha1MacLen) (store mem buf mac)
  else if bufLen ≠ 0 then
    match hmacSha1Vector sha1 (ready call) key elems with
    | none => (-1, mem)
    | some hash => (0, store mem buf (hash.take bufLen))
  else (0, mem)
termination_by bufLen
decreasing_by
  have pos : 0 < sha1MacLen := by decide
  omega

/-- `sha1_prf`, with the text of the label: the result and the memory. -/
def sha1Prf (ready : ℕ → Bool) (key label data : List UInt8) (buf bufLen : ℕ)
    (mem : ℕ → UInt8) : ℤ × (ℕ → UInt8) :=
  sha1PrfLoop sha1 ready key label data 0 0 buf bufLen mem

end

/-! ## What is written -/

section

variable {macLen : ℕ} (md : Digest macLen)

/-- The MACs of the counter, the label, the context and the number of bits, for the counter from 1
on. -/
def prfStream (key label data : List UInt8) (bits : ℕ) : ℕ → UInt8 :=
  stream (fun i => md.hmac key (packLe 2 (i + 1) ++ label ++ data ++ packLe 2 bits)) macLen

/-- The MACs of the label with its NUL, the data and the counter, for the counter from 0 on. -/
def sha1Stream (sha1 : Digest sha1MacLen) (key label data : List UInt8) : ℕ → UInt8 :=
  stream (fun i => sha1.hmac key (label ++ [0] ++ data ++ [UInt8.ofNat i])) sha1MacLen

variable {md}

theorem running_foldl_update {key message : List UInt8} {ctx : md.Ctx}
    (running : md.Running key message ctx) (elems : List (List UInt8)) :
    md.Running key (message ++ elems.flatten) (elems.foldl md.hmacUpdate ctx) := by
  induction elems generalizing message ctx with
  | nil =>
      rw [List.flatten_nil, List.append_nil]
      exact running
  | cons input elems ih =>
      rw [List.flatten_cons, ← List.append_assoc]
      exact ih (md.running_update running input)

theorem u16Bytes_ofNat (n : ℕ) : u16Bytes (UInt16.ofNat n) = packLe 2 n := by
  have low : UInt8.ofNat (UInt16.ofNat n).toNat = UInt8.ofNat n := by
    rw [← UInt8.toNat_inj, UInt8.toNat_ofNat', UInt8.toNat_ofNat', UInt16.toNat_ofNat']
    omega
  have high : UInt8.ofNat ((UInt16.ofNat n).toNat / 256) = UInt8.ofNat (n / 256) := by
    rw [← UInt8.toNat_inj, UInt8.toNat_ofNat', UInt8.toNat_ofNat', UInt16.toNat_ofNat']
    omega
  show [_, _] = [_, _]
  rw [low, high]

/-- Where `i` blocks have been written from `start` on, and the context is fresh. -/
structure PrfState.After (key label data : List UInt8) (bits start : ℕ) (mem : ℕ → UInt8) (i : ℕ)
    (s : PrfState md) : Prop where
  running : md.Running key [] s.ctx
  ctr : s.ctr = UInt16.ofNat (i + 1)
  buf : s.buf = start + macLen * i
  mem : s.mem = fill mem start (macLen * i) (prfStream md key label data bits)

variable {key label data : List UInt8} {bits start i : ℕ} {mem : ℕ → UInt8} {s : PrfState md}

/-- The MAC of the updates for a block is the next part of the stream. -/
theorem PrfState.After.store_mac (after : s.After key label data bits start mem i)
    {ctx : md.Ctx} {mac : List UInt8}
    (finish : md.hmacFinish ((prfElems label data s.ctr (UInt16.ofNat bits)).foldl md.hmacUpdate
      s.ctx) = (mac, ctx)) :
    md.Finished key ctx ∧ mac.length = macLen ∧ ∀ k ≤ macLen, store s.mem s.buf (mac.take k) =
      fill mem start (macLen * i + k) (prfStream md key label data bits) := by
  have message : (prfElems label data s.ctr (UInt16.ofNat bits)).flatten =
      packLe 2 (i + 1) ++ label ++ data ++ packLe 2 bits := by
    rw [prfElems, after.ctr, u16Bytes_ofNat, u16Bytes_ofNat]
    simp only [List.flatten_cons, List.flatten_nil, List.append_nil, List.append_assoc]
  have running := running_foldl_update after.running
    (prfElems label data s.ctr (UInt16.ofNat bits))
  rw [List.nil_append, message] at running
  have finished := md.finished_finish running
  have value := md.finish_fst running
  rw [finish] at finished value
  subst value
  refine ⟨finished, md.length_hmac _ _, fun k le => ?_⟩
  rw [after.mem, after.buf]
  exact store_block i (md.length_hmac _ _) le

theorem prfLoop_after (after : s.After key label data bits start mem i) :
    (prfLoop md label data (UInt16.ofNat bits) s).After key label data bits start mem
        (i + s.bufLen / macLen) ∧
      (prfLoop md label data (UInt16.ofNat bits) s).bufLen = s.bufLen % macLen := by
  have pos := md.macLen_pos
  induction s using prfLoop.induct md label data (UInt16.ofNat bits) generalizing i with
  | case1 s more mac ctx finish ih =>
      rcases after.store_mac finish with ⟨finished, length, stored⟩
      have next : ({
          ctx := md.hmacReset ctx
          ctr := s.ctr + 1
          buf := s.buf + macLen
          bufLen := s.bufLen - macLen
          mem := store s.mem s.buf mac } : PrfState md).After key label data bits start mem
            (i + 1) := by
        refine ⟨md.running_reset finished, ?_, ?_, ?_⟩
        · show s.ctr + 1 = _
          rw [after.ctr, UInt16.ofNat_add (i + 1) 1]
          rfl
        · show s.buf + macLen = _
          rw [after.buf, Nat.mul_succ, Nat.add_assoc]
        · have whole := stored macLen (Nat.le_refl _)
          rw [List.take_of_length_le (Nat.le_of_eq length)] at whole
          rw [whole, Nat.mul_succ]
      have blocks : s.bufLen / macLen = (s.bufLen - macLen) / macLen + 1 :=
        Nat.div_eq_sub_div pos more
      rw [prfLoop, if_pos more, finish, blocks, Nat.mod_eq_sub_mod more, ← Nat.add_assoc,
        Nat.add_right_comm]
      exact ih next
  | case2 s short =>
      have less := Nat.not_le.mp short
      rw [prfLoop, if_neg short, Nat.div_eq_of_lt less, Nat.mod_eq_of_lt less]
      exact ⟨after, rfl⟩

/-- The tail writes what is left. -/
theorem prfTail_after (after : s.After key label data bits start mem i)
    (less : s.bufLen < macLen) :
    (prfTail md label data (UInt16.ofNat bits) s).buf = start + (macLen * i + s.bufLen) ∧
      (prfTail md label data (UInt16.ofNat bits) s).mem =
        fill mem start (macLen * i + s.bufLen) (prfStream md key label data bits) := by
  rw [prfTail]
  split
  next =>
    rcases after.store_mac rfl with ⟨-, -, stored⟩
    exact ⟨by rw [after.buf, Nat.add_assoc], stored _ (Nat.le_of_lt less)⟩
  next nothing =>
    have zero : s.bufLen = 0 := Decidable.not_not.mp nothing
    rw [zero]
    exact ⟨after.buf, after.mem⟩

end

section

variable {macLen : ℕ} (md : Digest macLen) (key label data : List UInt8) (buf : ℕ)
  (mem : ℕ → UInt8)

/-- The bits of the stream that were asked for are written, and zeros behind them up to the next
byte. -/
theorem hmacPrfBits_eq (ready : Bool) (bits : ℕ) :
    hmacPrfBits md ready key label data buf bits mem =
      if ready then
        (0, fill mem buf ((bits + 7) / 8) (firstBits bits (prfStream md key label data bits)))
      else (-1, mem) := by
  cases ready with
  | false => rfl
  | true =>
      have fresh : ({
          ctx := md.hmacStarts md.setup key
          ctr := 1
          buf := buf
          bufLen := (bits + 7) / 8
          mem := mem } : PrfState md).After key label data bits buf mem 0 := by
        refine ⟨md.running_starts key, rfl, rfl, ?_⟩
        rw [Nat.mul_zero, fill_zero]
      rcases prfLoop_after fresh with ⟨looped, left⟩
      have less := Nat.mod_lt ((bits + 7) / 8) md.macLen_pos
      rw [← left] at less
      rcases prfTail_after looped less with ⟨bufEq, memEq⟩
      rw [left, Nat.zero_add, Nat.div_add_mod] at bufEq memEq
      have low : bits &&& 0x7 = bits % 8 := Nat.and_two_pow_sub_one_eq_mod bits 3
      rw [hmacPrfBits, if_pos rfl, if_pos rfl]
      simp only [bufEq, memEq, low]
      split
      next part =>
        have last : buf + (bits + 7) / 8 - 1 = buf + bits / 8 := by omega
        have inside : bits / 8 < (bits + 7) / 8 := by omega
        rw [last, store_fill_cell inside, fill_inside inside]
        congr 1
        refine fill_congr fun j _ => ?_
        rw [firstBits]
        by_cases here : j = bits / 8
        · rw [if_pos here, if_pos here, here]
          rfl
        · rw [if_neg here, if_neg here]
      next whole =>
        congr 1
        refine fill_congr fun j lt => ?_
        rw [firstBits, if_neg (by omega)]

/-- What is written of the stream of `sha1_prf`: all of it, or the blocks before the first call that
failed. -/
def sha1Outcome (len : ℕ) (f : ℕ → UInt8) : Option ℕ → ℤ × (ℕ → UInt8)
  | none => (0, fill mem buf len f)
  | some call => (-1, fill mem buf (sha1MacLen * call) f)

variable (sha1 : Digest sha1MacLen) (ready : ℕ → Bool)

theorem hmacSha1Vector_eq (call i : ℕ) :
    hmacSha1Vector sha1 (ready call) key [label ++ [0], data, [UInt8.ofNat i]] =
      if ready call then some (sha1.hmac key (label ++ [0] ++ data ++ [UInt8.ofNat i]))
      else none := by
  rw [hmacSha1Vector, hmacVector]
  split
  next =>
    have running := running_foldl_update (sha1.running_starts key)
      [label ++ [0], data, [UInt8.ofNat i]]
    have message : [] ++ [label ++ [0], data, [UInt8.ofNat i]].flatten =
        label ++ [0] ++ data ++ [UInt8.ofNat i] := by
      simp only [List.nil_append, List.flatten_cons, List.flatten_nil, List.append_nil,
        List.append_assoc]
    rw [message] at running
    rw [sha1.finish_fst running]
  next => rfl

/-- The next block, or the front of it. -/
theorem store_sha1_block (call : ℕ) {k : ℕ} (le : k ≤ sha1MacLen) :
    store (fill mem buf (sha1MacLen * call) (sha1Stream sha1 key label data))
        (buf + sha1MacLen * call)
        ((sha1.hmac key (label ++ [0] ++ data ++ [UInt8.ofNat call])).take k) =
      fill mem buf (sha1MacLen * call + k) (sha1Stream sha1 key label data) :=
  store_block call (sha1.length_hmac _ _) le

theorem sha1PrfLoop_eq (call bufLen : ℕ) :
    sha1PrfLoop sha1 ready key label data call (UInt8.ofNat call) (buf + sha1MacLen * call) bufLen
        (fill mem buf (sha1MacLen * call) (sha1Stream sha1 key label data)) =
      sha1Outcome buf mem (sha1MacLen * call + bufLen) (sha1Stream sha1 key label data)
        ((List.range' call ((bufLen + 19) / 20)).find? (!ready ·)) := by
  have twenty : sha1MacLen = 20 := rfl
  induction bufLen using Nat.strongRecOn generalizing call with
  | ind bufLen ih =>
      rw [sha1PrfLoop]
      simp only [hmacSha1Vector_eq]
      split
      next whole =>
        have blocks : (bufLen + 19) / 20 = (bufLen - sha1MacLen + 19) / 20 + 1 := by omega
        rw [blocks, List.range'_succ, List.find?_cons]
        cases ready call with
        | false => rfl
        | true =>
            have mac := store_sha1_block key label data buf mem sha1 call (Nat.le_refl _)
            rw [List.take_of_length_le (Nat.le_of_eq (sha1.length_hmac _ _))] at mac
            have next := ih (bufLen - sha1MacLen) (by omega) (call + 1)
            have counted : sha1MacLen * (call + 1) + (bufLen - sha1MacLen) =
                sha1MacLen * call + bufLen := by
              rw [Nat.mul_succ]
              omega
            rw [counted, Nat.mul_succ, ← Nat.add_assoc, UInt8.ofNat_add] at next
            simp only [if_true, mac]
            exact next
      next short =>
        split
        next =>
          have block : (bufLen + 19) / 20 = 1 := by omega
          rw [block, List.range'_one, List.find?_singleton]
          cases ready call with
          | false => rfl
          | true =>
              have mac := store_sha1_block key label data buf mem sha1 call
                (Nat.le_of_lt (Nat.not_le.mp short))
              simp only [if_true, mac]
              rfl
        next nothing =>
          have zero : bufLen = 0 := Decidable.not_not.mp nothing
          rw [zero]
          rfl

/-- All that was asked for is written, unless a call fails. -/
theorem sha1Prf_eq (bufLen : ℕ) :
    sha1Prf sha1 ready key label data buf bufLen mem =
      sha1Outcome buf mem bufLen (sha1Stream sha1 key label data)
        ((List.range ((bufLen + 19) / 20)).find? (!ready ·)) := by
  have loop := sha1PrfLoop_eq key label data buf mem sha1 ready 0 bufLen
  rw [Nat.mul_zero, fill_zero, Nat.zero_add, ← List.range_eq_range'] at loop
  exact loop

end

/-- Both functions write as many bytes as were asked for, and nothing else: `hmac_prf_bits` the
first bits of the MACs with the counters 1, 2 and so on, with zeros in the rest of the last byte,
and `sha1_prf` the first bytes of those with the counters 0, 1 and so on. Where `mbedtls_md_setup`
fails the result is -1. -/
theorem keyDerivation {macLen : ℕ} (md : Digest macLen) (sha1 : Digest sha1MacLen)
    (key label data : List UInt8) (buf : ℕ) (mem : ℕ → UInt8) (ready : Bool) (bits : ℕ)
    (calls : ℕ → Bool) (bufLen : ℕ) :
    (∃ out, hmacPrfBits md ready key label data buf bits mem =
        (if ready then (0, fill mem buf ((bits + 7) / 8) out) else (-1, mem)) ∧
      ∀ k < 8 * ((bits + 7) / 8),
        bitAt out k = (decide (k < bits) && bitAt (prfStream md key label data bits) k)) ∧
      sha1Prf sha1 calls key label data buf bufLen mem =
        sha1Outcome buf mem bufLen (sha1Stream sha1 key label data)
          ((List.range ((bufLen + 19) / 20)).find? (!calls ·)) :=
  ⟨⟨_, hmacPrfBits_eq md key label data buf mem ready bits, fun _ lt => bitAt_firstBits bits _ lt⟩,
    sha1Prf_eq key label data buf mem sha1 calls bufLen⟩

/-! ## The PRFs of a number of bytes -/

section

variable (key label data : List UInt8) (buf bufLen : ℕ) (mem : ℕ → UInt8)

/-- `sha512_prf` -/
def sha512Prf (sha512 : Digest 64) (ready : Bool) : ℤ × (ℕ → UInt8) :=
  hmacPrfBits sha512 ready key label data buf (bufLen * 8) mem

/-- `sha384_prf` -/
def sha384Prf (sha384 : Digest 48) (ready : Bool) : ℤ × (ℕ → UInt8) :=
  hmacPrfBits sha384 ready key label data buf (bufLen * 8) mem

/-- `sha256_prf` -/
def sha256Prf (sha256 : Digest 32) (ready : Bool) : ℤ × (ℕ → UInt8) :=
  hmacPrfBits sha256 ready key label data buf (bufLen * 8) mem

/-- No bit of whole bytes is cleared. -/
theorem hmacPrfBits_bytes {macLen : ℕ} (md : Digest macLen) :
    hmacPrfBits md true key label data buf (bufLen * 8) mem =
      (0, fill mem buf bufLen (prfStream md key label data (bufLen * 8))) := by
  have bytes : (bufLen * 8 + 7) / 8 = bufLen := by omega
  rw [hmacPrfBits_eq, if_pos rfl, bytes]
  congr 1
  refine fill_congr fun j lt => ?_
  rw [firstBits, if_neg (by omega)]

theorem shaPrf_eq (sha512 : Digest 64) (sha384 : Digest 48) (sha256 : Digest 32) :
    sha512Prf key label data buf bufLen mem sha512 true =
        (0, fill mem buf bufLen (prfStream sha512 key label data (bufLen * 8))) ∧
      sha384Prf key label data buf bufLen mem sha384 true =
        (0, fill mem buf bufLen (prfStream sha384 key label data (bufLen * 8))) ∧
      sha256Prf key label data buf bufLen mem sha256 true =
        (0, fill mem buf bufLen (prfStream sha256 key label data (bufLen * 8))) :=
  ⟨hmacPrfBits_bytes .., hmacPrfBits_bytes .., hmacPrfBits_bytes ..⟩

/-- How a digest collects its updates does not matter. -/
theorem hmacPrfBits_ofHash {macLen : ℕ} (md : Digest macLen) (ready : Bool) (bits : ℕ) :
    hmacPrfBits md ready key label data buf bits mem =
      hmacPrfBits (.ofHash md.hmac md.length_hmac md.macLen_pos) ready key label data buf bits
        mem := by
  rw [hmacPrfBits_eq, hmacPrfBits_eq]
  rfl

/-- After 256 blocks the counter is back at 0, and the output begins again. -/
theorem sha1Stream_add_period (sha1 : Digest sha1MacLen) (j : ℕ) :
    sha1Stream sha1 key label data (j + 256 * sha1MacLen) = sha1Stream sha1 key label data j := by
  have block : (j + 256 * sha1MacLen) / sha1MacLen = j / sha1MacLen + 256 :=
    Nat.add_mul_div_right j 256 (by decide)
  have counter : UInt8.ofNat (j / sha1MacLen + 256) = UInt8.ofNat (j / sha1MacLen) := by
    rw [← UInt8.toNat_inj, UInt8.toNat_ofNat', UInt8.toNat_ofNat']
    exact Nat.add_mod_right _ 256
  rw [sha1Stream, stream, stream, block, counter, Nat.add_mul_mod_self_right]

end

end HalowBridge.Crypto
