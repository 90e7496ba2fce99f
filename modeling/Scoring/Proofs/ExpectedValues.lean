import Mathlib.Data.List.TakeWhile
import Scoring.Proofs.Lines

/-!
# Expected values, one on each line

An expected value stands on its line as a number, alone or between brackets (`Input.Entry`). The
opening bracket is cut off without a look at the closing one, and the other way round, so that a
number with one of them only is read as well (`Input.HalfEntry`). These are the texts that are read,
and all others are refused (`Input.expected_of_lines`).

No bracket is part of a number (`Number.not_mem_of_read?`). Hence a number is left as it is where
brackets are cut off (`Input.read?_stripBrackets_iff`), and no line has two of the forms
(`Input.HalfEntry.not_entry`).
-/

namespace Scoring

/-! ### Brackets and numerals -/

namespace Text

/-- The characters that may enclose an expected value. -/
def IsBracket (c : Char) : Prop := c = '[' ∨ c = ']'

variable {c : Char} {cs : List Char}

instance : DecidablePred IsBracket := fun c => inferInstanceAs (Decidable (c = '[' ∨ c = ']'))

/-- A bracket is not among some characters if another character is put before them. -/
theorem IsBracket.not_mem_cons {d : Char} (hc : IsBracket c) (hd : ¬ IsBracket d)
    (h : c ∉ cs) : c ∉ d :: cs :=
  List.not_mem_cons_of_ne_of_not_mem (fun heq => hd (heq ▸ hc)) h

/-- A bracket is no digit. -/
theorem IsBracket.not_isDigit (hc : IsBracket c) : ¬ c.isDigit := by
  obtain rfl | rfl := hc <;> decide

/-- A bracket is no letter, and so no part of a word for a number. -/
theorem IsBracket.not_isAlpha (hc : IsBracket c) : ¬ c.isAlpha := by
  obtain rfl | rfl := hc <;> decide

/-- A bracket has no lower case. -/
theorem IsBracket.toLower_eq (hc : IsBracket c) : c.toLower = c := by
  obtain rfl | rfl := hc <;> rfl

/-- A bracket is not blank, so that it is not cut off with blanks. -/
theorem IsBracket.not_isBlankChar (hc : IsBracket c) : ¬ isBlankChar c := by
  obtain rfl | rfl := hc <;> decide

/-- What is cut off is blank. -/
theorem mem_trimChars (hmem : c ∈ cs) (hblank : ¬ isBlankChar c) : c ∈ trimChars cs := by
  have hdrop (ds : List Char) (h : c ∈ ds) : c ∈ ds.dropWhile isBlankChar := by
    rw [← List.takeWhile_append_dropWhile (p := isBlankChar) (l := ds), List.mem_append] at h
    exact h.resolve_left fun h => hblank (List.mem_takeWhile_imp h)
  exact List.mem_reverse.2 (hdrop _ (List.mem_reverse.2 (hdrop _ hmem)))

end Text

open Text

variable {c : Char} {cs : List Char}

namespace Decimal

/-- No bracket is among digits. -/
theorem not_mem_of_natOfChars? (hc : IsBracket c) {n : Nat} (h : natOfChars? cs = some n) :
    c ∉ cs := by
  rw [natOfChars?] at h
  split at h
  · rename_i hdigits
    exact fun hmem => hc.not_isDigit (List.all_eq_true.1 hdigits.2 c hmem)
  · cases h

/-- No bracket is part of an exponent: a letter, perhaps a sign, and digits. -/
theorem not_mem_of_exponentOfChars? (hc : IsBracket c) {e : Int}
    (h : exponentOfChars? cs = some e) : c ∉ cs := by
  have hmark {mark : Char} (h : mark = 'e' ∨ mark = 'E') : ¬ IsBracket mark := by
    obtain rfl | rfl := h <;> decide
  have hdigits {f : Int → Int} {ds : List Char}
      (h : ((natOfChars? ds).bind fun n => some (n : Int)).map f = some e) : c ∉ ds := by
    obtain ⟨_, hn, _⟩ := Option.map_eq_some_iff.1 h
    obtain ⟨n, hn, _⟩ := Option.bind_eq_some_iff.1 hn
    exact not_mem_of_natOfChars? hc hn
  unfold exponentOfChars? at h
  split at h
  case h_1 => exact List.not_mem_nil
  case h_2 =>
    split at h
    · exact hc.not_mem_cons (hmark ‹_›) (hc.not_mem_cons (by decide) (hdigits h))
    · cases h
  case h_3 =>
    split at h
    · exact hc.not_mem_cons (hmark ‹_›) (hc.not_mem_cons (by decide) (hdigits h))
    · cases h
  case h_4 =>
    split at h
    · exact hc.not_mem_cons (hmark ‹_›) (hdigits h)
    · cases h

/-- No bracket is part of a numeral: digits, perhaps a point and digits, and an exponent. -/
theorem not_mem_of_ofChars? (hc : IsBracket c) {d : Decimal} (h : ofChars? cs = some d) :
    c ∉ cs := by
  have hdigits {ds : List Char} (h : c ∉ ds.dropWhile Char.isDigit) : c ∉ ds := by
    rw [← List.takeWhile_append_dropWhile (p := Char.isDigit) (l := ds), List.mem_append]
    exact not_or.2 ⟨fun hmem => hc.not_isDigit (List.mem_takeWhile_imp hmem), h⟩
  -- The digits in front have no bracket, so that it is enough to look at what follows them.
  refine hdigits ?_
  simp only [ofChars?] at h
  generalize cs.dropWhile Char.isDigit = rest at h ⊢
  split at h
  · split at h
    · cases h
    obtain ⟨e, he, _⟩ := Option.map_eq_some_iff.1 h
    exact hc.not_mem_cons (by decide) (hdigits (not_mem_of_exponentOfChars? hc he))
  · split at h
    · cases h
    obtain ⟨e, he, _⟩ := Option.map_eq_some_iff.1 h
    exact not_mem_of_exponentOfChars? hc he

end Decimal

namespace Number

variable {x : Float}

/-- No bracket is part of what is read as a number without a sign. -/
theorem not_mem_of_ofChars? (hc : IsBracket c) (h : ofChars? cs = some x) : c ∉ cs := by
  have hword (word : List Char) (hletters : word.all Char.isAlpha)
      (hcs : String.ofList (cs.map Char.toLower) = String.ofList word) : c ∉ cs := by
    intro hmem
    have hlower : c.toLower ∈ cs.map Char.toLower := List.mem_map_of_mem hmem
    rw [hc.toLower_eq, String.ofList_injective hcs] at hlower
    exact hc.not_isAlpha (List.all_eq_true.1 hletters c hlower)
  -- A word for an infinity or for no number, in either case, or a numeral.
  rw [ofChars?] at h
  split at h
  · exact hword ['i', 'n', 'f'] rfl ‹_›
  · exact hword ['i', 'n', 'f', 'i', 'n', 'i', 't', 'y'] rfl ‹_›
  · exact hword ['n', 'a', 'n'] rfl ‹_›
  · obtain ⟨d, hd, _⟩ := Option.map_eq_some_iff.1 h
    exact Decimal.not_mem_of_ofChars? hc hd

/-- No bracket is part of what is read as a number with a sign. -/
theorem not_mem_of_ofSignedChars? (hc : IsBracket c) (h : ofSignedChars? cs = some x) :
    c ∉ cs := by
  unfold ofSignedChars? at h
  split at h
  · obtain ⟨y, hy, _⟩ := Option.map_eq_some_iff.1 h
    exact hc.not_mem_cons (by decide) (not_mem_of_ofChars? hc hy)
  · exact hc.not_mem_cons (by decide) (not_mem_of_ofChars? hc h)
  · exact not_mem_of_ofChars? hc h

/-- No bracket is part of a number. -/
theorem not_mem_of_read? (hc : IsBracket c) (h : read? (String.ofList cs) = some x) : c ∉ cs := by
  rw [read?, String.toList_ofList] at h
  exact fun hmem => not_mem_of_ofSignedChars? hc h (mem_trimChars hmem hc.not_isBlankChar)

end Number

namespace Input

variable {x : Float} {line : String}

/-! ### Entries -/

/-- The forms that an expected value has on its line, apart from blanks around them: a number alone,
    or between brackets. -/
inductive Entry : List Char → Float → Prop
  | bare {cs : List Char} {x : Float} : Number.read? (String.ofList cs) = some x → Entry cs x
  | bracketed {cs : List Char} {x : Float} : Number.read? (String.ofList cs) = some x →
      Entry ('[' :: cs ++ [']']) x

/-- A number with one of the brackets only. -/
inductive HalfEntry : List Char → Float → Prop
  | opened {cs : List Char} {x : Float} : Number.read? (String.ofList cs) = some x →
      HalfEntry ('[' :: cs) x
  | closed {cs : List Char} {x : Float} : Number.read? (String.ofList cs) = some x →
      HalfEntry (cs ++ [']']) x

/-- No line has a number with one bracket as well as with two or none. -/
theorem HalfEntry.not_entry {y : Float} (h : HalfEntry cs x) : ¬ Entry cs y := by
  cases h with
  | @opened cs _ hcs =>
    intro hentry
    cases hentry with
    | bare hy => exact Number.not_mem_of_read? (.inl rfl) hy List.mem_cons_self
    | bracketed =>
      exact Number.not_mem_of_read? (.inr rfl) hcs (List.mem_append_right _ List.mem_cons_self)
  | @closed cs _ hcs =>
    generalize hline : cs ++ [']'] = line
    rintro (hy | _)
    · subst hline
      exact Number.not_mem_of_read? (.inr rfl) hy (List.mem_append_right _ List.mem_cons_self)
    · -- The line has both brackets, the first of which would be part of the number.
      obtain rfl := List.append_cancel_right hline
      exact Number.not_mem_of_read? (.inl rfl) hcs List.mem_cons_self

/-! ### Brackets cut off -/

/-- What is left of the characters without a bracket at the beginning. -/
def stripOpening : List Char → List Char
  | '[' :: cs => cs
  | cs => cs

/-- What is left of the characters without a bracket at the end. -/
def stripClosing (cs : List Char) : List Char :=
  match cs.reverse with
  | ']' :: reversed => reversed.reverse
  | _ => cs

/-- Brackets are cut off at the beginning first, and then at the end. -/
theorem stripBrackets_eq (cs : List Char) :
    stripBrackets cs = stripClosing (stripOpening cs) := rfl

/-- At the beginning one bracket is cut off, or nothing. -/
theorem stripOpening_cases (cs : List Char) :
    cs = stripOpening cs ∨ cs = '[' :: stripOpening cs := by
  unfold stripOpening
  split
  · exact .inr rfl
  · exact .inl rfl

/-- At the end one bracket is cut off, or nothing. -/
theorem stripClosing_cases (cs : List Char) :
    cs = stripClosing cs ∨ cs = stripClosing cs ++ [']'] := by
  rw [stripClosing]
  split
  · rename_i reversed h
    exact .inr (by rw [← List.reverse_cons, ← h, List.reverse_reverse])
  · exact .inl rfl

/-- Without an opening bracket, nothing is cut off at the beginning. -/
theorem stripOpening_of_not_mem (h : '[' ∉ cs) : stripOpening cs = cs := by
  obtain hcs | hcs := stripOpening_cases cs
  · exact hcs.symm
  · exact absurd (hcs ▸ List.mem_cons_self) h

/-- Without a closing bracket, nothing is cut off at the end. -/
theorem stripClosing_of_not_mem (h : ']' ∉ cs) : stripClosing cs = cs := by
  obtain hcs | hcs := stripClosing_cases cs
  · exact hcs.symm
  · exact absurd (hcs ▸ List.mem_append_right _ List.mem_cons_self) h

/-- A bracket at the end is cut off. -/
theorem stripClosing_append (cs : List Char) : stripClosing (cs ++ [']']) = cs := by
  simp [stripClosing]

/-- The two brackets are cut off each on its own. What is left is a number if and only if there were
    both, none, or one of them. -/
theorem read?_stripBrackets_iff :
    Number.read? (String.ofList (stripBrackets cs)) = some x ↔ Entry cs x ∨ HalfEntry cs x := by
  rw [stripBrackets_eq]
  constructor
  · intro h
    -- A bracket may or may not have been cut off at either end: four forms of a line.
    obtain hopening | hopening := stripOpening_cases cs <;>
      obtain hclosing | hclosing := stripClosing_cases (stripOpening cs) <;>
      rw [hopening, hclosing]
    · exact .inl (.bare h)
    · exact .inr (.closed h)
    · exact .inr (.opened h)
    · exact .inl (.bracketed h)
  · rintro ((h | h) | (h | h))
    · rwa [stripOpening_of_not_mem (Number.not_mem_of_read? (.inl rfl) h),
        stripClosing_of_not_mem (Number.not_mem_of_read? (.inr rfl) h)]
    · rwa [List.cons_append, stripOpening, stripClosing_append]
    · rwa [stripOpening, stripClosing_of_not_mem (Number.not_mem_of_read? (.inr rfl) h)]
    · rename_i cs
      have hopening : '[' ∉ cs ++ [']'] := by
        simpa using Number.not_mem_of_read? (.inl rfl) h
      rwa [stripOpening_of_not_mem hopening, stripClosing_append]

/-! ### Lines -/

/-- A line has an entry or half of one, with blanks around it. -/
def ReadsExpected (line : String) (x : Float) : Prop :=
  Entry (trimChars line.toList) x ∨ HalfEntry (trimChars line.toList) x

/-- A line is read as a number if and only if it has an entry or half of one. -/
theorem expectedNumber?_eq_some_iff (line : String) (x : Float) :
    expectedNumber? line = some x ↔ ReadsExpected line x := read?_stripBrackets_iff

/-- A text of expected values is read if and only if every line that is not blank is a number,
    within brackets or without, or a number with one bracket only; and these are the numbers, in
    their order. Otherwise it is refused with the number, from one on and counting blank lines, of
    the first line that is neither blank nor of these forms, and with the text of that line without
    the blanks around it. No line is of the forms with one bracket and of the others as well. -/
theorem expected_of_lines (text : String) :
    (∀ xs, expected text = .ok xs ↔ List.Forall₂ ReadsExpected (nonblank (lines text)) xs) ∧
    ((∃ xs, expected text = .ok xs) ↔
      ∀ line ∈ lines text, isBlank line ∨ ∃ x, ReadsExpected line x) ∧
    (∀ e, expected text = .error e ↔ ∃ before line,
      FirstUnread ReadsExpected (lines text) before line ∧
      e = .expected (before.length + 1) (trim line)) ∧
    ∀ cs x y, HalfEntry cs x → ¬ Entry cs y := by
  refine ⟨fun xs => readLines_eq_ok_iff expectedNumber?_eq_some_iff 1,
    exists_readLines_eq_ok_iff expectedNumber?_eq_some_iff 1, fun e => ?_,
    fun cs x y h => h.not_entry⟩
  simp only [Nat.add_comm _ 1]
  exact readLines_eq_error_iff expectedNumber?_eq_some_iff 1

/-- A line that is opened by a bracket which nothing closes is read as its number. -/
theorem exists_expected_of_half : ∃ text xs, expected text = .ok xs ∧
    ¬ ∀ line ∈ lines text, isBlank line ∨ ∃ x, Entry (trimChars line.toList) x := by
  refine ⟨"[1", [1], by decide +kernel, fun h => ?_⟩
  have hlines : lines "[1" = ["[1"] := by decide +kernel
  obtain hblank | ⟨y, hentry⟩ := h "[1" (hlines ▸ List.mem_cons_self)
  · exact absurd hblank (by decide +kernel)
  · have hone : Number.read? (String.ofList ['1']) = some 1 := by decide +kernel
    exact (HalfEntry.opened hone).not_entry hentry

end Input

end Scoring
