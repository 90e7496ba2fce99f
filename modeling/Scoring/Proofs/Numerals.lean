import Mathlib.Data.List.TakeWhile
import Scoring.Number.Text

/-!
# Numerals

The text of every number is a numeral: it reads as a number
(`Number.isSome_read?_text`). The digits of a decimal are written as a run of digits, or two
with a point between them (`Decimal.Positional`), and each such writing is read.
-/

namespace Scoring

/-! ### Decimals -/

namespace Decimal

/-- A run of digits, or two with a point between them. -/
inductive Positional : List Char → Prop
  | whole {cs : List Char} : cs ≠ [] → (∀ c ∈ cs, c.isDigit) → Positional cs
  | fraction {cs ds : List Char} : cs ≠ [] → (∀ c ∈ cs, c.isDigit) → (∀ c ∈ ds, c.isDigit) →
      Positional (cs ++ '.' :: ds)

variable {cs ds : List Char}

/-- A run of digits reads as its natural number. -/
theorem ofChars?_whole (hne : cs ≠ []) (hdigits : ∀ c ∈ cs, c.isDigit) :
    ofChars? cs = some ⟨natOfDigits cs, 0⟩ := by
  have htake : cs.takeWhile Char.isDigit = cs := List.takeWhile_eq_self_iff.2 hdigits
  have hdrop : cs.dropWhile Char.isDigit = [] := List.dropWhile_eq_nil_iff.2 hdigits
  simp [ofChars?, htake, hdrop, hne, exponentOfChars?]

/-- Digits with a point between them read as the number of all digits, with as many places as
    come after the point. -/
theorem ofChars?_fraction (hne : cs ≠ []) (hcs : ∀ c ∈ cs, c.isDigit) (hds : ∀ c ∈ ds, c.isDigit) :
    ofChars? (cs ++ '.' :: ds) = some ⟨natOfDigits (cs ++ ds), -ds.length⟩ := by
  have htake : (cs ++ '.' :: ds).takeWhile Char.isDigit = cs := by
    rw [List.takeWhile_append_of_pos hcs]
    exact List.append_nil cs
  have hdrop : (cs ++ '.' :: ds).dropWhile Char.isDigit = '.' :: ds := by
    rw [List.dropWhile_append_of_pos hcs]
    rfl
  have htake' : ds.takeWhile Char.isDigit = ds := List.takeWhile_eq_self_iff.2 hds
  have hdrop' : ds.dropWhile Char.isDigit = [] := List.dropWhile_eq_nil_iff.2 hds
  simp [ofChars?, htake, hdrop, htake', hdrop', hne, exponentOfChars?]

/-- What is written with digits and a point reads as a decimal. -/
theorem Positional.isSome_ofChars? (h : Positional cs) : (ofChars? cs).isSome := by
  cases h with
  | whole hne hdigits =>
    rw [ofChars?_whole hne hdigits]
    rfl
  | fraction hne hcs hds =>
    rw [ofChars?_fraction hne hcs hds]
    rfl

/-- A digit is not blank. -/
theorem not_isBlankChar_of_isDigit {c : Char} (h : c.isDigit) : ¬ Text.isBlankChar c := by
  have hle : ∀ a b : Char, a ≤ b ↔ a.toNat ≤ b.toNat := fun _ _ => UInt32.le_iff_toNat_le
  have hrange : '0' ≤ c ∧ c ≤ '9' := by simpa [Char.isDigit, Char.le_def] using h
  -- Both are ranges of codes, and these have none in common.
  intro hblank
  simp only [Text.isBlankChar, Bool.or_eq_true, Bool.and_eq_true, decide_eq_true_iff, hle,
    ← Char.toNat_inj, Char.reduceToNat] at hblank hrange
  omega

/-- Nothing in a written decimal is blank. -/
theorem Positional.not_isBlankChar (h : Positional cs) : ∀ c ∈ cs, ¬ Text.isBlankChar c := by
  have hdigit : ∀ c : Char, c.isDigit → ¬ Text.isBlankChar c := fun _ => not_isBlankChar_of_isDigit
  cases h with
  | whole _ hdigits => exact fun c hc => hdigit c (hdigits c hc)
  | fraction _ hcs hds =>
    intro c hc
    -- A digit before the point, the point, or a digit after it.
    rcases List.mem_append.1 hc with hc | hc
    · exact hdigit c (hcs c hc)
    · rcases List.mem_cons.1 hc with rfl | hc
      · decide
      · exact hdigit c (hds c hc)

/-- What is written begins with a digit. -/
theorem Positional.exists_cons (h : Positional cs) : ∃ c rest, cs = c :: rest ∧ c.isDigit := by
  cases h with
  | whole hne hdigits =>
    obtain ⟨c, rest, rfl⟩ := List.exists_cons_of_ne_nil hne
    exact ⟨c, rest, rfl, hdigits c List.mem_cons_self⟩
  | fraction hne hdigits _ =>
    obtain ⟨c, rest, rfl⟩ := List.exists_cons_of_ne_nil hne
    exact ⟨c, _, rfl, hdigits c List.mem_cons_self⟩

/-- Some digits before the last of them, which are without the zeros that end them. -/
theorem digits_of_split {places : Nat} (hdigits : ∀ c ∈ cs, c.isDigit)
    (hplaces : places < cs.length) :
    cs.take (cs.length - places) ≠ [] ∧ (∀ c ∈ cs.take (cs.length - places), c.isDigit) ∧
      ∀ c ∈ dropTrailingZeros (cs.drop (cs.length - places)), c.isDigit := by
  refine ⟨?_, fun c hc => hdigits c (List.mem_of_mem_take hc), fun c hc => ?_⟩
  · rw [ne_eq, List.take_eq_nil_iff]
    rintro (h | rfl)
    · omega
    · cases hplaces
  · rw [dropTrailingZeros, List.mem_reverse] at hc
    have hdropped := (List.dropWhile_sublist _).mem hc
    exact hdigits c (List.mem_of_mem_drop (List.mem_reverse.1 hdropped))

/-- Digits are written with a point before the last of them, unless all of these are zeros. -/
theorem Positional.of_split {places : Nat} (hdigits : ∀ c ∈ cs, c.isDigit)
    (hplaces : places < cs.length) :
    Positional (if (dropTrailingZeros (cs.drop (cs.length - places))).isEmpty
      then cs.take (cs.length - places)
      else cs.take (cs.length - places) ++
        '.' :: dropTrailingZeros (cs.drop (cs.length - places))) := by
  obtain ⟨hne, hwhole, hfraction⟩ := digits_of_split hdigits hplaces
  split
  · exact .whole hne hwhole
  · exact .fraction hne hwhole hfraction

/-- The digits of a number are digits, and so are zeros behind them. -/
theorem isDigit_of_mem_toDigits_append {m n : ℕ} :
    ∀ c ∈ Nat.toDigits 10 m ++ List.replicate n '0', c.isDigit := by
  refine List.forall_mem_append.2 ⟨fun c hc => ?_, fun c hc => ?_⟩
  · exact Nat.isDigit_of_mem_toDigits (by decide) (by decide) hc
  · rw [List.eq_of_mem_replicate hc]
    rfl

/-- Zeros in front of the digits of a number are digits, too. -/
theorem isDigit_of_mem_append_toDigits {m n : ℕ} :
    ∀ c ∈ List.replicate n '0' ++ Nat.toDigits 10 m, c.isDigit :=
  List.forall_mem_append.2 (List.forall_mem_append.1 isDigit_of_mem_toDigits_append).symm

/-- Every decimal is written with digits, and at most one point between them. -/
theorem positional_positional (d : Decimal) : Positional d.positional := by
  rw [positional]
  split
  · exact .whole (List.append_ne_nil_of_left_ne_nil Nat.toDigits_ne_nil _)
      isDigit_of_mem_toDigits_append
  · refine .of_split isDigit_of_mem_append_toDigits ?_
    -- There are more digits than places, as zeros are put before them.
    rw [List.length_append, List.length_replicate]
    omega

end Decimal

namespace Number

variable {cs : List Char}

/-- Nothing is cut off where nothing is blank. -/
theorem trimChars_of_forall_not_isBlankChar (h : ∀ c ∈ cs, ¬ Text.isBlankChar c) :
    Text.trimChars cs = cs := by
  have hdrop : ∀ ds : List Char, (∀ c ∈ ds, ¬ Text.isBlankChar c) →
      ds.dropWhile Text.isBlankChar = ds := fun ds hds => by
    cases ds with
    | nil => rfl
    | cons c ds => exact List.dropWhile_cons_of_neg (hds c List.mem_cons_self)
  rw [Text.trimChars, hdrop cs h, hdrop cs.reverse fun c hc => h c (List.mem_reverse.1 hc),
    List.reverse_reverse]

/-- What reads as a decimal reads as a number. -/
theorem isSome_ofChars? (h : (Decimal.ofChars? cs).isSome) : (ofChars? cs).isSome := by
  rw [ofChars?]
  split
  · rfl
  · rfl
  · rfl
  · rwa [Option.isSome_map]

/-- There is nothing to trim about a numeral that is written, and its first digit is no sign. -/
theorem read?_of_positional (h : Decimal.Positional cs) :
    read? (String.ofList cs) = ofChars? cs ∧
      read? ("-" ++ String.ofList cs) = (ofChars? cs).map (- ·) := by
  have hblank := h.not_isBlankChar
  constructor
  · rw [read?, String.toList_ofList, trimChars_of_forall_not_isBlankChar hblank]
    obtain ⟨c, rest, rfl, hc⟩ := h.exists_cons
    rw [ofSignedChars?]
    · rintro cs hcs
      cases hcs
      cases hc
    · rintro cs hcs
      cases hcs
      cases hc
  · have hminus : ("-" ++ String.ofList cs).toList = '-' :: cs := by simp
    rw [read?, hminus, trimChars_of_forall_not_isBlankChar
      (List.forall_mem_cons.2 ⟨by decide, hblank⟩), ofSignedChars?]

/-- The text of a number is a numeral: it reads as a number again. -/
theorem isSome_read?_text (x : Float) : (read? (text x)).isSome := by
  -- The words for what is not a number and for the infinities, or a decimal with its sign.
  rw [text]
  split
  · decide
  · split
    · simp only
      split <;> decide
    · have hpositional := Decimal.positional_positional (shortest x.abs)
      simp only
      generalize (shortest x.abs).positional = cs at hpositional ⊢
      have hsome := isSome_ofChars? hpositional.isSome_ofChars?
      obtain ⟨hplain, hminus⟩ := read?_of_positional hpositional
      split
      · rwa [hplain]
      · rwa [hminus, Option.isSome_map]

end Number

end Scoring
