import Scoring.Proofs.Lines
import Scoring.Proofs.Reading

/-!
# Rows, one on each line

A row stands on a line as a JSON object whose values are not made of others (`Row.OnLine`). A text
of rows is what its lines are, apart from the blank ones (`Input.rows_of_lines`): it is read if each
line has a row, and otherwise refused with the number of the first that has none. Blank lines that
are put in do not change the rows, and neither do the kinds of line ends.

What JSON a line holds is for the `JsonReader` to say. A line may keep a carriage return that is not
part of its end, and so the reader has to pass over it (`JsonReader.IgnoresReturn`); nothing else is
asked of it.
-/

namespace Scoring

namespace Json

/-- A value that is not made of others, and what a row has for it. -/
inductive Scalar : Json → Value → Prop
  | null : Scalar null .absent
  | boolean (b : Bool) : Scalar (boolean b) (.boolean b)
  | string (s : String) : Scalar (string s) (.text s)
  | integer (n : Int) : Scalar (integer n) (.number (Float.ofInt n))
  | real (x : Float) : Scalar (real x) (.number x)

/-- A value that is not made of others is what a row has for it. -/
theorem value?_eq_some_iff {v : Json} {value : Value} :
    v.value? = some value ↔ Scalar v value := by
  constructor
  · intro h
    cases v <;> cases h
    all_goals constructor
  · intro h
    cases h <;> rfl

/-- Clipping does not touch what a row can hold. -/
theorem value?_clip (v : Json) (levels : Nat) : (v.clip levels).value? = v.value? := by
  cases v <;> cases levels <;> rfl

end Json

namespace Row

/-- A line is an object of values, none of them made of others, and these are the row's; of members
    with one name the last counts. -/
def OnLine [JsonReader] (line : String) (row : Row) : Prop :=
  ∃ members entries, JsonReader.read? line = some (.object members) ∧
    List.Forall₂ (fun member entry => member.1 = entry.1 ∧ Json.Scalar member.2 entry.2)
      members entries ∧ row = Record.ofList entries

/-- An object is loaded as a row if each of its members is a value that is not made of others. -/
theorem load?_object_iff {members : List (String × Json)} {row : Row} :
    load? ofJson? (.object members) = some row ↔ ∃ entries,
      List.Forall₂ (fun member entry => member.1 = entry.1 ∧ Json.Scalar member.2 entry.2)
        members entries ∧ row = Record.ofList entries := by
  have hentry (member : String × Json) (entry : String × Value) :
      (member.2.clip 126).value?.map (member.1, ·) = some entry ↔
        member.1 = entry.1 ∧ Json.Scalar member.2 entry.2 := by
    simp only [Json.value?_clip, Option.map_eq_some_iff, Json.value?_eq_some_iff, Prod.ext_iff]
    constructor
    · rintro ⟨value, hvalue, hname, rfl⟩
      exact ⟨hname, hvalue⟩
    · rintro ⟨hname, hvalue⟩
      exact ⟨entry.2, hvalue, hname, rfl⟩
  change ((Json.allSome _).bind fun entries => some (Record.ofList entries)) = some row ↔ _
  simp only [List.map_map, Option.bind_eq_some_iff, Json.allSome_map_eq_some_iff,
    Option.some.injEq, Function.comp_apply, hentry, eq_comm (a := row)]

/-- A line is loaded as the row that is on it. -/
theorem loadText?_eq_some_iff [JsonReader] (line : String) (row : Row) :
    loadText? ofJson? line = some row ↔ OnLine line row := by
  rw [loadText?, Option.bind_eq_some_iff]
  constructor
  · rintro ⟨v, hread, hrow⟩
    cases v with
    | object members =>
      obtain ⟨entries, hentries, hrow⟩ := load?_object_iff.1 hrow
      exact ⟨members, entries, hread, hentries, hrow⟩
    -- Nothing but an object is loaded as a row.
    | _ => cases hrow
  · rintro ⟨members, entries, hread, hentries, hrow⟩
    exact ⟨_, hread, load?_object_iff.2 ⟨entries, hentries, hrow⟩⟩

end Row

namespace Input

open Text

/-- What ignores a carriage return at the end of a text loads the same from it. -/
theorem loadText?_append_return [JsonReader] (hreturn : JsonReader.IgnoresReturn) {α : Type}
    (decode : Json → Option α) (text : String) :
    loadText? decode (text ++ "\r") = loadText? decode text := by
  rw [loadText?, loadText?, hreturn]

/-- With a reader that passes over a carriage return at the end, a text of rows is read if and only
    if every line that is not blank is a row, and these are the rows, in their order. Otherwise it
    is refused with the number, from one on and counting blank lines, of the first line that is
    neither blank nor a row, whatever follows it.

    * Blank lines put in anywhere do not change the rows. If the text is refused, the number that is
      reported is greater by as many blank lines as are put in before that line.
    * A line feed may be preceded by a carriage return or not.
    * The last line may be ended by a line feed or not. -/
theorem rows_of_lines [JsonReader] (hreturn : JsonReader.IgnoresReturn) (text : String) :
    (∀ rs, rows text = .ok rs ↔ List.Forall₂ Row.OnLine (nonblank (lines text)) rs) ∧
    ((∃ rs, rows text = .ok rs) ↔ ∀ line ∈ lines text, isBlank line ∨ ∃ row, Row.OnLine line row) ∧
    (∀ e, rows text = .error e ↔ ∃ before line, FirstUnread Row.OnLine (lines text) before line ∧
      e = .row (before.length + 1)) ∧
    (∀ text' blocks, (∀ block ∈ blocks, ∀ line ∈ block, isBlank line) →
      lines text' = weave blocks (lines text) →
      (∀ rs, rows text = .ok rs → rows text' = .ok rs) ∧
      ∀ number, rows text = .error (.row number) →
        rows text' = .error (.row (number + (blocks.take number).flatten.length))) ∧
    (∀ before after, rows (before ++ "\r\n" ++ after) = rows (before ++ "\n" ++ after)) ∧
    rows (text ++ "\n") = rows text := by
  have hok (text : String) (rs : List Row) :
      rows text = .ok rs ↔ List.Forall₂ Row.OnLine (nonblank (lines text)) rs :=
    readLines_eq_ok_iff Row.loadText?_eq_some_iff 1
  have herror (text : String) (e : InputError) :
      rows text = .error e ↔ ∃ before line, FirstUnread Row.OnLine (lines text) before line ∧
        e = .row (before.length + 1) := by
    simp only [Nat.add_comm _ 1]
    exact readLines_eq_error_iff Row.loadText?_eq_some_iff 1
  refine ⟨hok text, exists_readLines_eq_ok_iff Row.loadText?_eq_some_iff 1, herror text,
    fun text' blocks hblocks hlines => ⟨fun rs h => ?_, fun number h => ?_⟩, ?_, ?_⟩
  · rwa [hok, hlines, nonblank_weave hblocks, ← hok]
  · obtain ⟨before, line, hfirst, hnumber⟩ := (herror text _).1 h
    obtain rfl : number = before.length + 1 := InputError.row.inj hnumber
    obtain ⟨before', hfirst', hlength⟩ := hfirst.weave hblocks
    refine (herror text' _).2 ⟨before', line, hlines ▸ hfirst', ?_⟩
    rw [hlength]
    congr 1
    omega
  · intro before after
    have hlines := forall₂_lines before after
    exact readLines_congr (loadText?_append_return hreturn _) (fun _ _ => rfl) hlines 1
  · -- At most an empty line is added, which is blank and counts for no row.
    obtain ⟨empty, hempty, hsame⟩ := exists_forall₂_lines_append text
    have hblank : ∀ l ∈ empty, isBlank l := fun l hl => by
      rw [hempty l hl]
      rfl
    have hrows : readLines (loadText? Row.ofJson?) (fun number _ => .row number)
        (numbered 1 (lines text ++ empty)) = rows (text ++ "\n") :=
      readLines_congr (loadText?_append_return hreturn _) (fun _ _ => rfl) hsame 1
    rw [← hrows, numbered_append_of_isBlank hblank]
    rfl

/-- The first line has a carriage return in its end, and the last one has one without a line feed.
    Of the other text the third line is refused, and the blank line before it counts. -/
theorem rows_of_lines_returns :
    let text := "\x7b\"size\": 2, \"kind\": \"red\"\x7d\r\n\t\n" ++
      "\x7b\"kind\": null, \"open\": true\x7d\r"
    let rs : List Row := [.ofList [("size", .number 2), ("kind", .text "red")],
      .ofList [("kind", .absent), ("open", .boolean true)]]
    let bad := "\x7b\"size\": [2]\x7d"
    let refused := "\x7b\"size\": 2\x7d\n\t\n" ++ bad ++ "\n\x7b\x7d"
    JsonReader.IgnoresReturn ∧ rows text = .ok rs ∧
      List.Forall₂ Row.OnLine (nonblank (lines text)) rs ∧ rows (text ++ "\n") = .ok rs ∧
      rows refused = .error (.row 3) ∧
      ∃ before, FirstUnread Row.OnLine (lines refused) before bad ∧
        before.length = 2 := by
  intro text rs bad refused
  obtain ⟨hok, _, _, _, _, hended⟩ := rows_of_lines Json.ignoresReturn text
  have hrows : rows text = .ok rs := by decide +kernel
  have hrefused : rows refused = .error (.row 3) := by decide +kernel
  obtain ⟨_, _, herror, _⟩ := rows_of_lines Json.ignoresReturn refused
  obtain ⟨before, line, hfirst, hnumber⟩ := (herror _).1 hrefused
  have hlength : before.length = 2 := Nat.succ.inj (InputError.row.inj hnumber).symm
  obtain ⟨after, hsplit⟩ := hfirst.exists_eq_append
  have hlines : lines refused = ["\x7b\"size\": 2\x7d", "\t", bad, "\x7b\x7d"] := by
    decide +kernel
  have hline : line = bad := by
    have hget : (lines refused)[before.length]? = some line := by simp [hsplit]
    rw [hlength, hlines] at hget
    exact (Option.some.inj hget).symm
  exact ⟨Json.ignoresReturn, hrows, (hok rs).1 hrows, hended.trans hrows, hrefused, before,
    hline ▸ hfirst, hlength⟩

/-- Two blank lines are put in before the second line, and one after it. -/
example : lines "{}\r\n\n \n[\n\t\n" = weave [[], ["", " "], ["\t"]] (lines "{}\n[") := by
  decide +kernel

end Input

end Scoring
