import HalowBridge.Lib.CString

/-!
# Escaping for the settings page

`html_escape` writes a string into an attribute value: four characters become entities, and the
loop stops when an entity might no longer fit the output array. The array is explicit and starts
with any content, since the page handler escapes into uninitialised arrays of its stack.

`htmlUnescape` is what a browser does with the attribute value. It reads from left to right, each
entity once, so that an escaped `&lt;` is not read as `<`.
-/

namespace HalowBridge.Config

/-- The entity of a character that `html_escape` replaces. -/
def entity (c : UInt8) : Option (List UInt8) :=
  if c = 0x26 then some (ascii "&amp;")
  else if c = 0x22 then some (ascii "&quot;")
  else if c = 0x3c then some (ascii "&lt;")
  else if c = 0x3e then some (ascii "&gt;")
  else none

/-- The loop of `html_escape`, with the output index and the output array. -/
def htmlEscapeLoop (outSize : ℕ) : List UInt8 → ℕ → List UInt8 → ℕ × List UInt8
  | [], n, out => (n, out)
  | c :: rest, n, out =>
      if c ≠ 0 ∧ n + 6 < outSize then
        match entity c with
        | some text =>
            let (out, written) := snprintf out n (outSize - n) text
            htmlEscapeLoop outSize rest (n + written) out
        | none => htmlEscapeLoop outSize rest (n + 1) (out.set n c)
      else (n, out)

/-- The output array after `html_escape`. -/
def htmlEscape (input : List UInt8) {outSize : ℕ} (out : Table UInt8 outSize) : List UInt8 :=
  let (n, out) := htmlEscapeLoop outSize input 0 out.slots
  out.set n 0

/-- The text of an attribute value: the four entities are read back. -/
def htmlUnescape : List UInt8 → List UInt8
  | 0x26 :: 0x61 :: 0x6d :: 0x70 :: 0x3b :: rest => 0x26 :: htmlUnescape rest
  | 0x26 :: 0x71 :: 0x75 :: 0x6f :: 0x74 :: 0x3b :: rest => 0x22 :: htmlUnescape rest
  | 0x26 :: 0x6c :: 0x74 :: 0x3b :: rest => 0x3c :: htmlUnescape rest
  | 0x26 :: 0x67 :: 0x74 :: 0x3b :: rest => 0x3e :: htmlUnescape rest
  | c :: rest => c :: htmlUnescape rest
  | [] => []

/-! ## The escaped text -/

/-- What `html_escape` writes for one character. -/
def escapedChar (c : UInt8) : List UInt8 := (entity c).getD [c]

/-- What `html_escape` writes for a string, when there is room. -/
def escaped (text : List UInt8) : List UInt8 := text.flatMap escapedChar

theorem escaped_cons (c : UInt8) (text : List UInt8) :
    escaped (c :: text) = escapedChar c ++ escaped text :=
  List.flatMap_cons

/-- The four characters with an entity, and the others. -/
theorem entity_cases (c : UInt8) :
    (c = 0x26 ∧ entity c = some (ascii "&amp;")) ∨ (c = 0x22 ∧ entity c = some (ascii "&quot;")) ∨
      (c = 0x3c ∧ entity c = some (ascii "&lt;")) ∨ (c = 0x3e ∧ entity c = some (ascii "&gt;")) ∨
      (c ≠ 0x26 ∧ entity c = none) := by
  unfold entity
  split_ifs <;> simp_all

theorem length_entity_le {c : UInt8} {text : List UInt8} (found : entity c = some text) :
    text.length ≤ 6 := by
  rcases entity_cases c with ⟨-, e⟩ | ⟨-, e⟩ | ⟨-, e⟩ | ⟨-, e⟩ | ⟨-, e⟩ <;> rw [found] at e
  case inr.inr.inr.inr => cases e
  all_goals
    obtain rfl := Option.some.inj e
    decide +kernel

theorem length_escapedChar_le (c : UInt8) : (escapedChar c).length ≤ 6 := by
  unfold escapedChar
  cases found : entity c with
  | none => exact Nat.le_add_left 1 5
  | some text => exact length_entity_le found

theorem length_escaped_le (text : List UInt8) : (escaped text).length ≤ 6 * text.length := by
  induction text with
  | nil => exact Nat.le_refl 0
  | cons c text ih =>
      have := length_escapedChar_le c
      rw [escaped_cons, List.length_append, List.length_cons]
      omega

theorem zero_not_mem_escapedChar {c : UInt8} (nonzero : c ≠ 0) : 0 ∉ escapedChar c := by
  unfold escapedChar
  rcases entity_cases c with ⟨-, e⟩ | ⟨-, e⟩ | ⟨-, e⟩ | ⟨-, e⟩ | ⟨-, e⟩ <;> rw [e]
  case inr.inr.inr.inr => simpa using Ne.symm nonzero
  all_goals
    rw [Option.getD_some]
    decide +kernel

theorem zero_not_mem_escaped {text : List UInt8} (clean : 0 ∉ text) : 0 ∉ escaped text := by
  intro member
  rcases List.mem_flatMap.mp member with ⟨c, inside, zero⟩
  exact zero_not_mem_escapedChar (fun null : c = 0 => clean (null ▸ inside)) zero

/-- One turn of the loop: a character is written, and the loop goes on behind it. -/
theorem htmlEscapeLoop_cons {outSize n : ℕ} {c : UInt8} {out : List UInt8} (nonzero : c ≠ 0)
    (room : n + 6 < outSize) (size : out.length = outSize) (rest : List UInt8) :
    ∃ next, htmlEscapeLoop outSize (c :: rest) n out =
        htmlEscapeLoop outSize rest (n + (escapedChar c).length) next ∧
      next.length = outSize ∧
      next.take (n + (escapedChar c).length) = out.take n ++ escapedChar c := by
  rw [htmlEscapeLoop, if_pos ⟨nonzero, room⟩]
  cases found : entity c with
  | some block =>
      have short := length_entity_le found
      have char : escapedChar c = block := by rw [escapedChar, found, Option.getD_some]
      obtain ⟨length, written⟩ :
          (snprintf out n (outSize - n) block).1.length = out.length ∧ _ :=
        snprintf_of_lt (by omega) (by omega)
      rw [char]
      exact ⟨_, rfl, length.trans size, written⟩
  | none =>
      have char : escapedChar c = [c] := by rw [escapedChar, found, Option.getD_none]
      have written : (out.set n c).take (n + 1) = out.take n ++ [c] := by
        rw [List.take_add_one, List.take_set, List.getElem?_set_self (by omega),
          List.set_eq_of_length_le (List.length_take_le _ _)]
        rfl
      rw [char]
      exact ⟨_, rfl, by rw [List.length_set, size], written⟩

/-- The loop escapes the first characters, and stops at the end of the string or where an entity
might no longer fit. -/
theorem htmlEscapeLoop_take {outSize : ℕ} {text : List UInt8} (clean : 0 ∉ text)
    (rest : List UInt8) {n : ℕ} {out : List UInt8} (size : out.length = outSize)
    (inside : n < outSize) :
    ∃ k ≤ text.length,
      (htmlEscapeLoop outSize (text ++ 0 :: rest) n out).1 =
        n + (escaped (text.take k)).length ∧
      (htmlEscapeLoop outSize (text ++ 0 :: rest) n out).2.length = outSize ∧
      (htmlEscapeLoop outSize (text ++ 0 :: rest) n out).2.take
        (n + (escaped (text.take k)).length) = out.take n ++ escaped (text.take k) ∧
      n + (escaped (text.take k)).length < outSize ∧
      (k < text.length → outSize ≤ n + (escaped (text.take k)).length + 6) := by
  induction text generalizing n out with
  | nil => exact ⟨0, Nat.le_refl 0, by simp [htmlEscapeLoop, escaped, size, inside]⟩
  | cons c text ih =>
      have nonzero : c ≠ 0 := fun zero => clean (zero ▸ List.mem_cons_self)
      have tail : 0 ∉ text := fun member => clean (List.mem_cons_of_mem _ member)
      by_cases room : n + 6 < outSize
      · rcases htmlEscapeLoop_cons nonzero room size (text ++ 0 :: rest) with
          ⟨next, loop, length, written⟩
        have short := length_escapedChar_le c
        rcases ih tail length (n := n + (escapedChar c).length) (by omega) with
          ⟨k, le, index, whole, taken, below, stopped⟩
        have joined : n + (escaped ((c :: text).take (k + 1))).length =
            n + (escapedChar c).length + (escaped (text.take k)).length := by
          rw [List.take_succ_cons, escaped_cons, List.length_append, Nat.add_assoc]
        refine ⟨k + 1, Nat.succ_le_succ le, ?_⟩
        rw [List.cons_append, loop, joined, List.take_succ_cons, escaped_cons,
          ← List.append_assoc, ← written]
        exact ⟨index, whole, taken, below, fun more => stopped (Nat.lt_of_succ_lt_succ more)⟩
      · refine ⟨0, Nat.zero_le _, ?_⟩
        rw [List.cons_append, htmlEscapeLoop, if_neg fun both => room both.2]
        exact ⟨rfl, size, by simp [escaped], inside, fun _ => Nat.not_lt.mp room⟩

/-- A text that surely fits is escaped whole. -/
theorem htmlEscapeLoop_eq {outSize : ℕ} {text rest : List UInt8} (clean : 0 ∉ text) {n : ℕ}
    {out : List UInt8} (size : out.length = outSize) (fits : n + 6 * text.length < outSize) :
    (htmlEscapeLoop outSize (text ++ 0 :: rest) n out).1 = n + (escaped text).length ∧
      (htmlEscapeLoop outSize (text ++ 0 :: rest) n out).2.length = outSize ∧
      (htmlEscapeLoop outSize (text ++ 0 :: rest) n out).2.take (n + (escaped text).length) =
        out.take n ++ escaped text := by
  rcases htmlEscapeLoop_take clean rest size (n := n) (by omega) with
    ⟨k, le, index, length, written, -, stopped⟩
  have whole : text.take k = text := by
    apply List.take_of_length_le
    by_contra more
    have short := length_escaped_le (text.take k)
    rw [List.length_take] at short
    have := stopped (by omega)
    omega
  rw [whole] at index written
  exact ⟨index, length, written⟩

/-- A string that surely fits is escaped whole, whatever the array held. -/
theorem cstr_htmlEscape {text rest : List UInt8} (clean : 0 ∉ text) {outSize : ℕ}
    (out : Table UInt8 outSize) (fits : 6 * text.length < outSize) :
    cstr (htmlEscape (text ++ 0 :: rest) out) = escaped text := by
  obtain ⟨index, length, written⟩ :
      (htmlEscapeLoop outSize (text ++ 0 :: rest) 0 out.slots).1 = _ ∧ _ :=
    htmlEscapeLoop_eq clean out.length_eq (by omega)
  have short := length_escaped_le text
  rw [Nat.zero_add] at index written
  show cstr (List.set _ _ 0) = _
  rw [index, List.set_eq_take_append_cons_drop, if_pos (by omega), written]
  exact cstr_append_zero (zero_not_mem_escaped clean) _

/-! ## Reading it back -/

theorem htmlUnescape_cons {c : UInt8} (other : c ≠ 0x26) (rest : List UInt8) :
    htmlUnescape (c :: rest) = c :: htmlUnescape rest := by
  rw [htmlUnescape]
  all_goals exact fun _ amp _ => other amp

theorem htmlUnescape_escapedChar (c : UInt8) (rest : List UInt8) :
    htmlUnescape (escapedChar c ++ rest) = c :: htmlUnescape rest := by
  unfold escapedChar
  rcases entity_cases c with ⟨rfl, e⟩ | ⟨rfl, e⟩ | ⟨rfl, e⟩ | ⟨rfl, e⟩ | ⟨other, e⟩ <;> rw [e]
  case inr.inr.inr.inr => exact htmlUnescape_cons other rest
  all_goals rfl

/-- **An escaped text is read back.** -/
theorem htmlUnescape_escaped (text : List UInt8) : htmlUnescape (escaped text) = text := by
  induction text with
  | nil => rfl
  | cons c text ih => rw [escaped_cons, htmlUnescape_escapedChar, ih]

/-! ## What the page shows -/

/-- Every `&` of a text begins one of the four entities. -/
def EntitiesWhole (text : List UInt8) : Prop :=
  ∀ before after, text = before ++ 0x26 :: after →
    ∃ c block, entity c = some block ∧ block <+: 0x26 :: after

/-- An `&` that is written begins the entity. -/
theorem entity_of_amp {c : UInt8} {before after : List UInt8}
    (here : escapedChar c = before ++ 0x26 :: after) :
    before = [] ∧ entity c = some (0x26 :: after) := by
  cases found : entity c with
  | none =>
      -- A character without an entity is written as it is, and is no `&`.
      rw [escapedChar, found, Option.getD_none] at here
      have amp : 0x26 ∈ [c] := here ▸ List.mem_append_right _ List.mem_cons_self
      rw [← List.mem_singleton.mp amp] at found
      cases found
  | some block =>
      rw [escapedChar, found, Option.getD_some] at here
      cases before with
      | nil => exact ⟨rfl, congrArg some here⟩
      | cons b before =>
          have later : 0x26 ∈ block.tail := by
            rw [here]
            exact List.mem_append_right _ List.mem_cons_self
          rcases entity_cases c with ⟨-, e⟩ | ⟨-, e⟩ | ⟨-, e⟩ | ⟨-, e⟩ | ⟨-, e⟩ <;> rw [found] at e
          case inr.inr.inr.inr => cases e
          all_goals
            obtain rfl := Option.some.inj e
            exact absurd later (by decide +kernel)

theorem entitiesWhole_escaped (text : List UInt8) : EntitiesWhole (escaped text) := by
  induction text with
  | nil => exact fun before after none => by simp [escaped] at none
  | cons c text ih =>
      intro before after here
      rw [escaped_cons] at here
      rcases List.append_eq_append_iff.mp here with ⟨rest, behind, later⟩ | ⟨rest, front, more⟩
      · exact ih rest after later
      · cases rest with
        | nil =>
            refine ih [] after ?_
            rw [List.nil_append] at more ⊢
            exact more.symm
        | cons d rest =>
            obtain ⟨rfl, rest_eq⟩ := List.cons.inj more
            obtain ⟨-, found⟩ := entity_of_amp front
            rw [rest_eq]
            exact ⟨c, _, found, ⟨escaped text, rfl⟩⟩

/-- No quotation mark and no angle bracket is written. -/
theorem not_mem_escaped {c : UInt8} (special : c = 0x22 ∨ c = 0x3c ∨ c = 0x3e)
    (text : List UInt8) : c ∉ escaped text := by
  intro member
  rcases List.mem_flatMap.mp member with ⟨d, -, inside⟩
  unfold escapedChar at inside
  rcases entity_cases d with ⟨-, e⟩ | ⟨-, e⟩ | ⟨-, e⟩ | ⟨-, e⟩ | ⟨-, e⟩ <;> rw [e] at inside
  case inr.inr.inr.inr =>
    rw [← List.mem_singleton.mp inside] at e
    rcases special with rfl | rfl | rfl <;> cases e
  all_goals
    rw [Option.getD_some] at inside
    rcases special with rfl | rfl | rfl <;> exact absurd inside (by decide +kernel)

/-- The array after `html_escape` holds the escape of the first characters of the string. -/
theorem exists_cstr_htmlEscape {text : List UInt8} (clean : 0 ∉ text) (rest : List UInt8)
    {outSize : ℕ} (out : Table UInt8 outSize) (nonempty : 1 ≤ outSize) :
    ∃ k ≤ text.length, cstr (htmlEscape (text ++ 0 :: rest) out) = escaped (text.take k) ∧
      (htmlEscape (text ++ 0 :: rest) out).length = outSize ∧
      0 ∈ htmlEscape (text ++ 0 :: rest) out ∧
      (k < text.length → outSize ≤ (escaped (text.take k)).length + 6) := by
  rcases htmlEscapeLoop_take clean rest out.length_eq (n := 0) nonempty with
    ⟨k, le, index, length, written, below, stopped⟩
  have short : 0 ∉ text.take k := fun member => clean (List.mem_of_mem_take member)
  have array : htmlEscape (text ++ 0 :: rest) out =
      escaped (text.take k) ++ 0 ::
        (htmlEscapeLoop outSize (text ++ 0 :: rest) 0 out.slots).2.drop
          ((escaped (text.take k)).length + 1) := by
    show List.set _ _ 0 = _
    rw [Nat.zero_add] at index written below
    rw [index, List.set_eq_take_append_cons_drop, if_pos (by omega), written]
    rfl
  rw [Nat.zero_add] at below stopped
  refine ⟨k, le, ?_, ?_, ?_, stopped⟩
  · rw [array]
    exact cstr_append_zero (zero_not_mem_escaped short) _
  · show (List.set _ _ 0).length = _
    rw [List.length_set, length]
  · rw [array]
    exact List.mem_append_right _ List.mem_cons_self

/-- What `html_escape` leaves in the array is terminated and safe inside an attribute value, and is
read back as the string or a first part of it. -/
structure SafelyEscaped (text : List UInt8) (outSize : ℕ) (array : List UInt8) : Prop where
  length : array.length = outSize
  terminated : 0 ∈ array
  noSpecial : ∀ c ∈ cstr array, c ≠ 0x22 ∧ c ≠ 0x3c ∧ c ≠ 0x3e
  entities : EntitiesWhole (cstr array)
  readBack : htmlUnescape (cstr array) <+: text
  whole : 6 * text.length < outSize → htmlUnescape (cstr array) = text

/-- **`html_escape` is safe for every string and every array.** -/
theorem htmlEscape_safe {text : List UInt8} (clean : 0 ∉ text) (rest : List UInt8) {outSize : ℕ}
    (nonempty : 1 ≤ outSize) (out : Table UInt8 outSize) :
    SafelyEscaped text outSize (htmlEscape (text ++ 0 :: rest) out) := by
  rcases exists_cstr_htmlEscape clean rest out nonempty with
    ⟨k, le, string, length, terminated, stopped⟩
  refine ⟨length, terminated, ?_, ?_, ?_, fun fits => ?_⟩
  · rw [string]
    intro c member
    refine ⟨?_, ?_, ?_⟩
    · exact fun same => not_mem_escaped (.inl same) _ member
    · exact fun same => not_mem_escaped (.inr (.inl same)) _ member
    · exact fun same => not_mem_escaped (.inr (.inr same)) _ member
  · rw [string]
    exact entitiesWhole_escaped _
  · rw [string, htmlUnescape_escaped]
    exact List.take_prefix k text
  · rw [cstr_htmlEscape clean out fits, htmlUnescape_escaped]

/-- A string of quotation marks in an array that has room for one of them. -/
theorem htmlEscape_safe_quotes :
    SafelyEscaped [0x22, 0x22] 9 (htmlEscape ([0x22, 0x22] ++ 0 :: []) (.fill 9 0x41)) :=
  htmlEscape_safe (by decide) [] (by decide) _

end HalowBridge.Config
