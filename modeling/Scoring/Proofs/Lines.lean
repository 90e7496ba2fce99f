import Mathlib.Data.List.Forall2
import Scoring.Input

/-!
# Items, one on each line

Rows and expected values are read from lines that hold one item each. Whatever the items are, a text
is read in one of two ways (`Input.readLines_eq_ok_iff`, `Input.readLines_eq_error_iff`): every line
that is not blank holds an item, and these are the items in their order; or there is a first line
that is neither blank nor an item (`Text.FirstUnread`), and its number counts the lines before it,
blank or not.

Blank lines may be put anywhere (`Text.weave`). This leaves the lines that are not blank as they
are, and the first line that cannot be read has so much greater a number as there are new lines
before it (`Text.FirstUnread.weave`). The two kinds of line ends differ by a carriage return that
may end a line, and by nothing else (`Text.forall₂_lines`).
-/

namespace Scoring

namespace Text

/-! ### Lines that are not blank -/

/-- The lines that are not blank. -/
def nonblank (ls : List String) : List String := ls.filter fun line => !isBlank line

/-- The lines that are not blank, with their numbers; `start` is that of the first line. -/
def numbered (start : Nat) (ls : List String) : List (Nat × String) :=
  (ls.zipIdx start).filterMap fun (line, number) =>
    if isBlank line then none else some (number, line)

/-- The lines of a text are numbered from one on. -/
theorem numberedLines_eq (s : String) : numberedLines s = numbered 1 (lines s) := rfl

variable {line : String} {start : Nat} {ls : List String}

/-- A blank line is left out. -/
theorem nonblank_cons_of_isBlank (h : isBlank line) : nonblank (line :: ls) = nonblank ls := by
  simp [nonblank, h]

/-- Any other line is kept. -/
theorem nonblank_cons_of_not_isBlank (h : ¬ isBlank line) :
    nonblank (line :: ls) = line :: nonblank ls := by
  simp [nonblank, h]

/-- A blank line is left out, and counts. -/
theorem numbered_cons_of_isBlank (h : isBlank line) :
    numbered start (line :: ls) = numbered (start + 1) ls := by
  simp [numbered, h]

/-- Any other line is kept, with its number. -/
theorem numbered_cons_of_not_isBlank (h : ¬ isBlank line) :
    numbered start (line :: ls) = (start, line) :: numbered (start + 1) ls := by
  simp [numbered, h]

/-- A line that is neither blank nor an item, the first of its kind: each of those before it is one
    or the other. -/
structure FirstUnread {α : Type} (Reads : String → α → Prop) (ls before : List String)
    (line : String) : Prop where
  exists_eq_append : ∃ after, ls = before ++ line :: after
  isBlank_or_reads : ∀ l ∈ before, isBlank l ∨ ∃ a, Reads l a
  not_isBlank : ¬ isBlank line
  not_reads : ∀ a, ¬ Reads line a

section

variable {α : Type} {Reads : String → α → Prop} {before : List String} {first : String}

/-- Without lines, there is none that cannot be read. -/
theorem not_firstUnread_nil : ¬ FirstUnread Reads [] before line := by
  rintro ⟨⟨after, h⟩, _, _, _⟩
  simp at h

/-- After a line that is blank or an item, the first unread one is among the others. -/
theorem firstUnread_cons_of_read (h : isBlank first ∨ ∃ a, Reads first a) :
    FirstUnread Reads (first :: ls) before line ↔
      ∃ rest, before = first :: rest ∧ FirstUnread Reads ls rest line := by
  constructor
  · rintro ⟨⟨after, hsplit⟩, hbefore, hblank, hreads⟩
    cases before with
    | nil =>
      obtain ⟨rfl, _⟩ := List.cons.inj hsplit
      exact (h.elim hblank fun ⟨a, ha⟩ => hreads a ha).elim
    | cons l rest =>
      obtain ⟨rfl, rfl⟩ := List.cons.inj hsplit
      exact ⟨rest, rfl, ⟨after, rfl⟩, (List.forall_mem_cons.1 hbefore).2, hblank, hreads⟩
  · rintro ⟨rest, rfl, ⟨after, rfl⟩, hrest, hblank, hreads⟩
    exact ⟨⟨after, rfl⟩, List.forall_mem_cons.2 ⟨h, hrest⟩, hblank, hreads⟩

/-- A line that is neither blank nor an item is the first unread one. -/
theorem firstUnread_cons_of_unread (hblank : ¬ isBlank first) (hreads : ∀ a, ¬ Reads first a) :
    FirstUnread Reads (first :: ls) before line ↔ before = [] ∧ line = first := by
  constructor
  · rintro ⟨⟨after, hsplit⟩, hbefore, _, _⟩
    cases before with
    | nil => exact ⟨rfl, (List.cons.inj hsplit).1.symm⟩
    | cons l rest =>
      obtain ⟨rfl, _⟩ := List.cons.inj hsplit
      exact ((List.forall_mem_cons.1 hbefore).1.elim hblank fun ⟨a, ha⟩ => hreads a ha).elim
  · rintro ⟨rfl, rfl⟩
    exact ⟨⟨ls, rfl⟩, nofun, hblank, hreads⟩

end

end Text

/-! ### Items -/

namespace Input

open Text

variable {α : Type} {read? : String → Option α} {Reads : String → α → Prop}
  {error : Nat → String → InputError} {ls : List String} {as : List α} {e : InputError}

/-- Lines are read if all that are not blank are, and give one item each. -/
theorem readLines_eq_ok_iff (hread : ∀ line a, read? line = some a ↔ Reads line a) (start : Nat) :
    readLines read? error (numbered start ls) = .ok as ↔ List.Forall₂ Reads (nonblank ls) as := by
  induction ls generalizing start as with
  | nil =>
    rw [show readLines read? error (numbered start []) = .ok [] from rfl, nonblank, List.filter_nil,
      List.forall₂_nil_left_iff, Except.ok.injEq, eq_comm]
  | cons line ls ih =>
    -- A blank line leaves it to the others; any other line has to be an item.
    by_cases hblank : isBlank line
    · rw [numbered_cons_of_isBlank hblank, nonblank_cons_of_isBlank hblank, ih]
    · rw [numbered_cons_of_not_isBlank hblank, nonblank_cons_of_not_isBlank hblank, readLines,
        List.forall₂_cons_left_iff]
      simp only [← hread, ← ih (start + 1)]
      cases read? line with
      | none => simp
      | some a =>
        cases readLines read? error (numbered (start + 1) ls) with
        | error e => simp
        | ok rest => simp [eq_comm]

/-- Lines can be read if and only if each is blank or holds an item. -/
theorem exists_readLines_eq_ok_iff (hread : ∀ line a, read? line = some a ↔ Reads line a)
    (start : Nat) :
    (∃ as, readLines read? error (numbered start ls) = .ok as) ↔
      ∀ line ∈ ls, isBlank line ∨ ∃ a, Reads line a := by
  simp only [readLines_eq_ok_iff hread]
  induction ls with
  | nil => simp [nonblank]
  | cons line ls ih =>
    rw [List.forall_mem_cons, ← ih]
    by_cases hblank : isBlank line
    · simp only [nonblank_cons_of_isBlank hblank, hblank, true_or, true_and]
    · simp only [nonblank_cons_of_not_isBlank hblank, hblank, Bool.false_eq_true, false_or,
        List.forall₂_cons_left_iff]
      constructor
      · rintro ⟨_, a, rest, ha, hrest, rfl⟩
        exact ⟨⟨a, ha⟩, rest, hrest⟩
      · rintro ⟨⟨a, ha⟩, rest, hrest⟩
        exact ⟨_, a, rest, ha, hrest, rfl⟩

/-- Lines are refused for the first that is neither blank nor an item, whose number counts those
    before it. -/
theorem readLines_eq_error_iff (hread : ∀ line a, read? line = some a ↔ Reads line a)
    (start : Nat) :
    readLines read? error (numbered start ls) = .error e ↔
      ∃ before line, FirstUnread Reads ls before line ∧
        e = error (start + before.length) line := by
  induction ls generalizing start with
  | nil => exact iff_of_false nofun fun ⟨_, _, h, _⟩ => not_firstUnread_nil h
  | cons first ls ih =>
    -- A line that is blank or an item leaves it to the lines after it, and counts once.
    have hnext (h : isBlank first ∨ ∃ a, Reads first a) :
        readLines read? error (numbered (start + 1) ls) = .error e ↔
          ∃ before line, FirstUnread Reads (first :: ls) before line ∧
            e = error (start + before.length) line := by
      rw [ih]
      simp only [firstUnread_cons_of_read h]
      constructor
      · rintro ⟨before, line, hfirst, rfl⟩
        refine ⟨first :: before, line, ⟨before, rfl, hfirst⟩, ?_⟩
        rw [List.length_cons, Nat.add_assoc, Nat.add_comm 1]
      · rintro ⟨_, line, ⟨before, rfl, hfirst⟩, rfl⟩
        refine ⟨before, line, hfirst, ?_⟩
        rw [List.length_cons, Nat.add_assoc, Nat.add_comm 1]
    by_cases hblank : isBlank first
    · rw [numbered_cons_of_isBlank hblank, hnext (.inl hblank)]
    · rw [numbered_cons_of_not_isBlank hblank, readLines]
      cases hfirst : read? first with
      | none =>
        have hreads : ∀ a, ¬ Reads first a := by simp [← hread, hfirst]
        -- This line is what the lines are refused for.
        simp only [firstUnread_cons_of_unread hblank hreads, Except.error.injEq]
        constructor
        · rintro rfl
          exact ⟨[], first, ⟨rfl, rfl⟩, rfl⟩
        · rintro ⟨_, _, ⟨rfl, rfl⟩, rfl⟩
          rfl
      | some a =>
        rw [← hnext (.inr ⟨a, (hread first a).1 hfirst⟩)]
        cases readLines read? error (numbered (start + 1) ls) <;> simp

end Input

/-! ### Blank lines put in -/

namespace Text

/-- The lines with blocks of other lines put between them: the first block before the first line,
    the second before the second and so on, and those that are left over after the last line. -/
def weave : List (List String) → List String → List String
  | [], ls => ls
  | blocks, [] => blocks.flatten
  | block :: blocks, line :: ls => block ++ line :: weave blocks ls

variable {blocks : List (List String)} {ls before : List String} {line : String}

/-- Lines are left out of each part by itself. -/
theorem nonblank_append (ls ms : List String) :
    nonblank (ls ++ ms) = nonblank ls ++ nonblank ms := List.filter_append ls ms

/-- Nothing is left of blank lines. -/
theorem nonblank_eq_nil (h : ∀ l ∈ ls, isBlank l) : nonblank ls = [] :=
  List.filter_eq_nil_iff.2 fun l hl => by simp [h l hl]

/-- Blank lines that are put in are passed over. -/
theorem nonblank_weave (hblocks : ∀ block ∈ blocks, ∀ l ∈ block, isBlank l) :
    nonblank (weave blocks ls) = nonblank ls := by
  fun_induction weave blocks ls with
  | case1 ls => rfl
  | case2 blocks _ =>
    exact nonblank_eq_nil fun l hl =>
      have ⟨block, hblock, hmem⟩ := List.mem_flatten.1 hl
      hblocks block hblock l hmem
  | case3 block blocks line ls ih =>
    obtain ⟨hblock, hblocks⟩ := List.forall_mem_cons.1 hblocks
    have hrest : nonblank (line :: weave blocks ls) = nonblank (line :: ls) := by
      by_cases hline : isBlank line
      · rw [nonblank_cons_of_isBlank hline, nonblank_cons_of_isBlank hline, ih hblocks]
      · rw [nonblank_cons_of_not_isBlank hline, nonblank_cons_of_not_isBlank hline, ih hblocks]
    rw [nonblank_append, nonblank_eq_nil hblock, List.nil_append, hrest]

/-- A line has the new lines before it that are in the blocks up to its own. -/
theorem exists_weave_eq (blocks : List (List String)) (before : List String) (line : String)
    (after : List String) : ∃ before' after',
      weave blocks (before ++ line :: after) = before' ++ line :: after' ∧
      before'.length = before.length + (blocks.take (before.length + 1)).flatten.length ∧
      ∀ l ∈ before', l ∈ before ∨ ∃ block ∈ blocks, l ∈ block := by
  induction before generalizing blocks with
  | nil =>
    cases blocks with
    | nil => exact ⟨[], after, rfl, rfl, nofun⟩
    | cons block blocks =>
      exact ⟨block, weave blocks after, rfl, by simp, fun l hl =>
        .inr ⟨block, List.mem_cons_self, hl⟩⟩
  | cons first before ih =>
    cases blocks with
    | nil => exact ⟨first :: before, after, rfl, rfl, fun l hl => .inl hl⟩
    | cons block blocks =>
      obtain ⟨before', after', hweave, hlength, hmem⟩ := ih blocks
      -- The first block comes before the first line, and the other blocks are for the others.
      refine ⟨block ++ first :: before', after', ?_, ?_, fun l hl => ?_⟩
      · rw [List.cons_append, weave, hweave, List.append_assoc, List.cons_append]
      · rw [List.length_cons, List.take_succ_cons, List.flatten_cons]
        simp only [List.length_append, List.length_cons, hlength]
        omega
      · rcases List.mem_append.1 hl with hl | hl
        · exact .inr ⟨block, List.mem_cons_self, hl⟩
        rcases List.mem_cons.1 hl with rfl | hl
        · exact .inl List.mem_cons_self
        rcases hmem l hl with hl | ⟨other, hother, hl⟩
        · exact .inl (List.mem_cons_of_mem _ hl)
        · exact .inr ⟨other, List.mem_cons_of_mem _ hother, hl⟩

/-- Blank lines that are put in do not change which line is the first that cannot be read. -/
theorem FirstUnread.weave {α : Type} {Reads : String → α → Prop}
    (h : FirstUnread Reads ls before line)
    (hblocks : ∀ block ∈ blocks, ∀ l ∈ block, isBlank l) : ∃ before',
      FirstUnread Reads (weave blocks ls) before' line ∧
      before'.length = before.length + (blocks.take (before.length + 1)).flatten.length := by
  obtain ⟨⟨after, rfl⟩, hbefore, hblank, hreads⟩ := h
  obtain ⟨before', after', hweave, hlength, hmem⟩ := exists_weave_eq blocks before line after
  refine ⟨before', ⟨⟨after', hweave⟩, fun l hl => ?_, hblank, hreads⟩, hlength⟩
  rcases hmem l hl with hl | ⟨block, hblock, hl⟩
  · exact hbefore l hl
  · exact .inl (hblocks block hblock l hl)

/-! ### Line ends -/

/-- The same line, apart from a carriage return that the first may end with. -/
def SameLine (l m : String) : Prop := l = m ∨ l = m ++ "\r"

/-- A carriage return does not make a line blank, or keep it from being so. -/
theorem SameLine.isBlank_eq {l m : String} (h : SameLine l m) : isBlank l = isBlank m := by
  obtain rfl | rfl := h
  · rfl
  · simp [isBlank, show isBlankChar '\r' from rfl]

/-- A line end takes a carriage return away from the line, if there is one. -/
theorem endedLine_cases (reversed : List Char) :
    reversed.reverse = endedLine reversed ∨ reversed.reverse = endedLine reversed ++ ['\r'] := by
  rw [endedLine.eq_def]
  split
  · exact .inr (List.reverse_cons ..)
  · exact .inl rfl

/-- A character that ends no line is put to the line so far. -/
theorem linesFrom_cons {c : Char} (hc : c ≠ '\n') (reversed cs : List Char) :
    linesFrom reversed (c :: cs) = linesFrom (c :: reversed) cs := by
  rw [linesFrom]
  exact hc

/-- A carriage return before a line feed belongs to the line end. Only if another one is before it,
    that one is left to the line. -/
theorem forall₂_linesFrom (reversed cs ds : List Char) :
    List.Forall₂ (fun l m => l = m ∨ l = m ++ ['\r'])
      (linesFrom reversed (cs ++ '\r' :: '\n' :: ds)) (linesFrom reversed (cs ++ '\n' :: ds)) := by
  have hsame (ls : List (List Char)) : List.Forall₂ (fun l m => l = m ∨ l = m ++ ['\r']) ls ls :=
    List.forall₂_same.2 fun _ _ => .inl rfl
  induction cs generalizing reversed with
  | nil => exact .cons (endedLine_cases reversed) (hsame _)
  | cons c cs ih =>
    by_cases hc : c = '\n'
    · subst hc
      exact .cons (.inl rfl) (ih [])
    · rw [List.cons_append, List.cons_append, linesFrom_cons hc, linesFrom_cons hc]
      exact ih _

/-- Lines that are the same as characters are the same as texts. -/
theorem forall₂_map_ofList {ls ms : List (List Char)}
    (h : List.Forall₂ (fun l m => l = m ∨ l = m ++ ['\r']) ls ms) :
    List.Forall₂ SameLine (ls.map String.ofList) (ms.map String.ofList) := by
  rw [List.forall₂_map_left_iff, List.forall₂_map_right_iff]
  refine h.imp fun l m h => h.imp (congrArg String.ofList) fun h => ?_
  rw [h, String.ofList_append]

/-- With a carriage return before one of the line feeds, the lines of a text are the same, or
    one of them is without a carriage return that it has otherwise. -/
theorem forall₂_lines (before after : String) :
    List.Forall₂ SameLine (lines (before ++ "\r\n" ++ after))
      (lines (before ++ "\n" ++ after)) := by
  simp only [lines, String.toList_append, List.append_assoc]
  exact forall₂_map_ofList (forall₂_linesFrom [] before.toList after.toList)

/-- A line feed at the end ends the last line, or adds a line that is empty. -/
theorem exists_forall₂_linesFrom_append (reversed cs : List Char) :
    ∃ empty, (∀ l ∈ empty, l = []) ∧ List.Forall₂ (fun l m => l = m ∨ l = m ++ ['\r'])
      (linesFrom reversed cs ++ empty) (linesFrom reversed (cs ++ ['\n'])) := by
  induction cs generalizing reversed with
  | nil =>
    cases reversed with
    -- The text ends with a line end already, so that there is an empty line now.
    | nil => exact ⟨[[]], by simp, .cons (.inl rfl) .nil⟩
    | cons c reversed => exact ⟨[], nofun, .cons (endedLine_cases (c :: reversed)) .nil⟩
  | cons c cs ih =>
    by_cases hc : c = '\n'
    · subst hc
      obtain ⟨empty, hempty, hlines⟩ := ih []
      exact ⟨empty, hempty, .cons (.inl rfl) hlines⟩
    · rw [List.cons_append, linesFrom_cons hc, linesFrom_cons hc]
      exact ih _

/-- A line feed at the end of a text adds an empty line at the most. -/
theorem exists_forall₂_lines_append (s : String) :
    ∃ empty, (∀ l ∈ empty, l = "") ∧
      List.Forall₂ SameLine (lines s ++ empty) (lines (s ++ "\n")) := by
  obtain ⟨empty, hempty, hlines⟩ := exists_forall₂_linesFrom_append [] s.toList
  refine ⟨empty.map String.ofList, fun l hl => ?_, ?_⟩
  · obtain ⟨cs, hcs, rfl⟩ := List.mem_map.1 hl
    rw [hempty cs hcs]
  · rw [lines, lines, ← List.map_append, String.toList_append]
    exact forall₂_map_ofList hlines

/-- Blank lines after the others do not change what is numbered. -/
theorem numbered_append_of_isBlank {ls extra : List String} (hextra : ∀ l ∈ extra, isBlank l)
    (start : Nat) : numbered start (ls ++ extra) = numbered start ls := by
  have hnone : numbered (start + ls.length) extra = [] :=
    List.filterMap_eq_nil_iff.2 fun pair hpair =>
      if_pos (hextra pair.1 (List.fst_mem_of_mem_zipIdx hpair))
  rw [numbered] at hnone ⊢
  rw [List.zipIdx_append, List.filterMap_append, hnone, List.append_nil]
  rfl

end Text

/-! ### The same items -/

namespace Input

open Text

variable {α : Type} {read? : String → Option α} {error : Nat → String → InputError}

/-- Items that are read alike whether or not a carriage return ends their lines are read from the
    same lines alike. -/
theorem readLines_congr (hread : ∀ line, read? (line ++ "\r") = read? line)
    (herror : ∀ n line, error n (line ++ "\r") = error n line) {ls ms : List String}
    (h : List.Forall₂ SameLine ls ms) (start : Nat) :
    readLines read? error (numbered start ls) = readLines read? error (numbered start ms) := by
  induction h generalizing start with
  | nil => rfl
  | @cons l m ls ms hsame _ ih =>
    have hblank := hsame.isBlank_eq
    by_cases hm : isBlank m
    · rw [numbered_cons_of_isBlank hm, numbered_cons_of_isBlank (hblank ▸ hm), ih]
    · rw [numbered_cons_of_not_isBlank hm, numbered_cons_of_not_isBlank (hblank ▸ hm), readLines,
        readLines, ih]
      -- The lines are equal, or a carriage return tells them apart.
      obtain rfl | rfl := hsame
      · rfl
      · rw [hread, herror]

end Input

end Scoring
