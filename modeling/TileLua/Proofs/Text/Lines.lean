import TileLua.Text

/-! Reading texts back.
What follows a lead, or stands between a lead and a trail, is the one text that does. What is put
together from lines is taken apart into the same lines, and the rows of a section are those between
its header and its footer.
-/

namespace TileLua.Text

theorem after_eq_some {lead : String} {text rest : List Char}
    : after? lead text = some rest ↔ text = lead.toList ++ rest := by
  unfold after?
  constructor
  · intro found
    split at found
    · rename_i begins
      obtain ⟨tail, rfl⟩ := List.isPrefixOf_iff_prefix.mp begins
      simpa using found
    · cases found
  · intro shape
    simp [shape]

theorem after_append (lead : String) (rest : List Char)
    : after? lead (lead.toList ++ rest) = some rest :=
  after_eq_some.mpr rfl

/-- Takes apart a text whose lines all end in a line feed. -/
def splitLines : List Char → List (List Char)
  | [] => []
  | c :: rest =>
      if c = '\n' then [] :: splitLines rest
      else
        match splitLines rest with
        | [] => [[c]]
        | line :: others => (c :: line) :: others

/-- The lines of a text. -/
def linesOf (text : String) : List String :=
  (splitLines text.toList).map String.ofList

/-- What stands in a text between a lead and a trail. -/
def between? (lead trail text : String) : Option String :=
  let middle := (text.toList.drop lead.length).take (text.length - lead.length - trail.length)
  if lead ++ String.ofList middle ++ trail = text then some (String.ofList middle) else none

/-- The lines after a header and before the next footer. -/
def rowsBetween (header footer : String) (lines : List String) : List String :=
  ((lines.dropWhile (· != header)).drop 1).takeWhile (· != footer)

theorem splitLines_line {line : List Char} (single : '\n' ∉ line) (rest : List Char)
    : splitLines (line ++ '\n' :: rest) = line :: splitLines rest := by
  induction line with
  | nil => simp [splitLines]
  | cons c line ih =>
      have other : c ≠ '\n' := fun same => single (by simp [same])
      have tail := ih (fun member => single (List.mem_cons_of_mem c member))
      simp only [List.cons_append, splitLines, other, ↓reduceIte, tail]

/-- Lines that are joined are read back, whatever follows them; by induction over the lines. -/
theorem linesOf_join_append {lines : List String} (single : ∀ line ∈ lines, '\n' ∉ line.toList)
    (rest : String)
    : linesOf (String.join (lines.map fun line => line ++ "\n") ++ rest)
      = lines ++ linesOf rest := by
  have split : splitLines (String.join (lines.map fun line => line ++ "\n") ++ rest).toList
      = lines.map String.toList ++ splitLines rest.toList := by
    induction lines with
    | nil => simp
    | cons line others ih =>
        have head := splitLines_line (single line List.mem_cons_self)
        have tail := ih (fun other member => single other (List.mem_cons_of_mem line member))
        rw [String.toList_append] at tail
        simp only [List.map_cons, String.join_cons, String.toList_append, List.append_assoc,
          List.cons_append]
        rw [← tail]
        exact head _
  rw [linesOf, split, List.map_append, List.map_map]
  simp [Function.comp_def, linesOf]

theorem linesOf_join {lines : List String} (single : ∀ line ∈ lines, '\n' ∉ line.toList)
    : linesOf (String.join (lines.map fun line => line ++ "\n")) = lines := by
  have read := linesOf_join_append single ""
  rwa [String.append_empty, show linesOf "" = [] from rfl, List.append_nil] at read

theorem between_eq_some {lead trail text middle : String}
    : between? lead trail text = some middle ↔ text = lead ++ middle ++ trail := by
  unfold between?
  constructor
  · intro found
    dsimp only at found
    split at found
    · rename_i whole
      obtain ⟨⟩ := found
      exact whole.symm
    · cases found
  · rintro rfl
    have parts : ((lead ++ middle ++ trail).toList.drop lead.length).take
        ((lead ++ middle ++ trail).length - lead.length - trail.length) = middle.toList := by
      have rest : (lead ++ middle ++ trail).length - lead.length - trail.length
          = middle.toList.length := by
        simp only [String.length_append, String.length_toList]
        omega
      rw [rest, String.append_assoc, String.toList_append, ← String.length_toList, List.drop_left,
        String.toList_append, List.take_left]
    simp only [parts, String.ofList_toList, ↓reduceIte]

theorem rowsBetween_eq {header footer : String} {before rows : List String} (after : List String)
    (first : header ∉ before) (last : footer ∉ rows)
    : rowsBetween header footer (before ++ header :: (rows ++ footer :: after)) = rows := by
  have other : ∀ line ∈ before, (line != header) = true := by
    intro line member
    exact bne_iff_ne.mpr (fun same => first (same ▸ member))
  have inside : ∀ line ∈ rows, (line != footer) = true := by
    intro line member
    exact bne_iff_ne.mpr (fun same => last (same ▸ member))
  rw [rowsBetween, List.dropWhile_append_of_pos other]
  simp [List.takeWhile_append_of_pos inside]

end TileLua.Text
