import BetaStepper.Proofs.Columns
import BetaStepper.Proofs.Escapes

/-! # The line of labels

Labels are put on their line from left to right, and each is moved out of the way of the one before it. `spots` gives
the columns at which they start, and `Arranged` says which these are and what stands there. The line is followed label
by label, with all that is written to the left of it: `Written.cons` adds one label, and `written_place` is the run. -/

namespace BetaStepper.Display

/-! ## Columns -/

/-- A label on the line and the column at which it starts. -/
structure Spot where
  label : Label
  start : Nat

/-- The column after the label. -/
def Spot.stop (spot : Spot) : Nat := spot.start + spot.label.text.length

/-- The labels on a line that is filled up to `column`. -/
def spots (column : Nat) : List Label → List Spot
  | [] => []
  | label :: rest =>
    let start := column + gap column label.position
    ⟨label, start⟩ :: spots (start + label.text.length) rest

theorem map_label_spots (column : Nat) (labels : List Label) : (spots column labels).map Spot.label = labels := by
  induction labels generalizing column with
  | nil => rfl
  | cons label rest restHypothesis => rw [spots, List.map_cons, restHypothesis]

theorem Label.length_text_pos (label : Label) : 0 < label.text.length := by
  have bracket : "[".length = 1 := rfl
  rw [text]
  split
  · rw [String.length_append, String.length_append]
    omega
  · decide

/-- The first label starts at its position. -/
theorem zero_add_gap {position : Int} (nonneg : 0 ≤ position) : ((0 + gap 0 position : Nat) : Int) = position := by
  rw [gap, if_pos rfl]
  split <;> omega

/-- A later label starts at its position or one blank after what is there. -/
theorem add_gap {column : Nat} (filled : 0 < column) (position : Int) :
    ((column + gap column position : Nat) : Int) = max position (column + 1) := by
  rw [gap, if_neg (Nat.ne_of_gt filled)]
  split <;> omega

/-- The label starts at its position, or one blank after the label before it if that is further right. -/
def Spot.Follows (previous spot : Spot) : Prop := (spot.start : Int) = max spot.label.position (previous.stop + 1)

theorem isChain_spots (previous : Spot) (labels : List Label) :
    (previous :: spots previous.stop labels).IsChain Spot.Follows := by
  induction labels generalizing previous with
  | nil => exact .singleton previous
  | cons label rest restHypothesis =>
    have filled : 0 < previous.stop := Nat.add_pos_right _ previous.label.length_text_pos
    exact .cons_cons (add_gap filled label.position) (restHypothesis ⟨label, _⟩)

theorem isChain_spots_zero (labels : List Label) : (spots 0 labels).IsChain Spot.Follows := by
  cases labels with
  | nil => exact .nil
  | cons label rest => exact isChain_spots ⟨label, _⟩ rest

theorem start_of_head {labels : List Label} (nonneg : ∀ label ∈ labels, 0 ≤ label.position) :
    ∀ spot ∈ (spots 0 labels).head?, (spot.start : Int) = spot.label.position := by
  intro spot isFirst
  cases labels with
  | nil => cases isFirst
  | cons label rest =>
    cases isFirst
    exact zero_add_gap (nonneg label List.mem_cons_self)

theorem position_le_start {column : Nat} {labels : List Label} {spot : Spot} (member : spot ∈ spots column labels) :
    spot.label.position ≤ spot.start := by
  induction labels generalizing column with
  | nil => cases member
  | cons label rest restHypothesis =>
    rcases List.mem_cons.1 member with rfl | inRest
    · dsimp only
      rw [gap]
      split <;> omega
    · exact restHypothesis inRest

/-- The two labels do not touch. -/
def Spot.LeftOf (left right : Spot) : Prop := left.stop < right.start

instance : Trans Spot.LeftOf Spot.LeftOf Spot.LeftOf where
  trans := by
    intro left between right first second
    rw [Spot.LeftOf, Spot.stop] at first second ⊢
    omega

theorem Spot.Follows.leftOf {previous spot : Spot} (follows : previous.Follows spot) : previous.LeftOf spot := by
  rw [Follows] at follows
  rw [LeftOf]
  omega

/-! ## What is written -/

/-- From `column` on the line has the labels in their columns, blanks elsewhere, and nothing after the last label. -/
structure Written (row : List Char) (column : Nat) (spots : List Spot) : Prop where
  at_start : ∀ spot ∈ spots, spot.label.text.toList <+: row.drop spot.start
  blank : ∀ place c, column ≤ place → row[place]? = some c →
    (∀ spot ∈ spots, place < spot.start ∨ spot.stop ≤ place) → c = ' '
  ends : row.length = (spots.getLast?.map Spot.stop).getD column

theorem Written.nil (row : List Char) : Written row row.length [] where
  at_start := nofun
  blank := by
    intro place c after found
    rw [List.getElem?_eq_none after] at found
    cases found
  ends := rfl

theorem Written.cons {left after : List Char} {blanks : Nat} {label : Label} {spots : List Spot}
    (written : Written (left ++ (List.replicate blanks ' ' ++ (label.text.toList ++ after)))
      (left.length + blanks + label.text.length) spots) :
    Written (left ++ (List.replicate blanks ' ' ++ (label.text.toList ++ after))) left.length
      (⟨label, left.length + blanks⟩ :: spots) where
  at_start := by
    intro spot member
    rcases List.mem_cons.1 member with rfl | inSpots
    · have reached : (left ++ List.replicate blanks ' ').length = left.length + blanks := by simp
      rw [← List.append_assoc, List.drop_left' reached]
      exact List.prefix_append _ _
    · exact written.at_start spot inSpots
  blank := by
    intro place c after found outside
    have own := outside _ List.mem_cons_self
    rw [Spot.stop] at own
    dsimp only at own
    rcases own with before | behind
    · -- the place is among the blanks in front of the new label
      rw [List.getElem?_append_right after, List.getElem?_append_left (by simp; omega)] at found
      exact List.eq_of_mem_replicate (List.mem_of_getElem? found)
    · exact written.blank place c behind found fun spot member => outside spot (List.mem_cons_of_mem _ member)
  ends := by
    rw [written.ends]
    cases spots with
    | nil => rfl
    | cons spot rest => rw [List.getLast?_cons_cons]; rfl

theorem toList_place_cons (column : Nat) (label : Label) (rest : List Label) :
    ((place column (label :: rest)).render false).toList =
      List.replicate (gap column label.position) ' ' ++ (label.text.toList ++
        ((place (column + gap column label.position + label.text.length) rest).render false).toList) := by
  rw [place]
  simp only [render_false_cons, String.toList_append]
  rw [Text.repeated, String.toList_ofList]
  rfl

theorem written_place (left : List Char) (labels : List Label) :
    Written (left ++ ((place left.length labels).render false).toList) left.length (spots left.length labels) := by
  induction labels generalizing left with
  | nil =>
    have empty : ((place left.length []).render false).toList = [] := rfl
    rw [empty, List.append_nil]
    exact .nil left
  | cons label rest restHypothesis =>
    rw [toList_place_cons, spots]
    apply Written.cons
    have longer := restHypothesis (left ++ (List.replicate (gap left.length label.position) ' ' ++ label.text.toList))
    simpa [Nat.add_assoc, String.length_toList] using longer

/-! ## Stable order -/

/-- The left label does not stand further right than the other. -/
def Label.notAfter (left right : Label) : Bool := decide (left.position ≤ right.position)

theorem Label.notAfter_trans (left between right : Label) (first : left.notAfter between = true)
    (second : between.notAfter right = true) : left.notAfter right = true := by
  simp only [notAfter, decide_eq_true_eq] at first second ⊢
  omega

theorem Label.notAfter_total (left right : Label) : (left.notAfter right || right.notAfter left) = true := by
  simp only [notAfter, Bool.or_eq_true, decide_eq_true_eq]
  omega

/-- Sorting keeps the order of labels with the same position. -/
theorem filter_mergeSort (labels : List Label) (position : Int) :
    (labels.mergeSort Label.notAfter).filter (·.position = position) = labels.filter (·.position = position) := by
  -- labels with one position are in order as they are, so sorting keeps them as a sublist, and it loses none
  have together : (labels.filter (·.position = position)).Pairwise (Label.notAfter · ·) := by
    rw [List.pairwise_filter]
    apply List.pairwise_of_forall
    intro left right atLeft atRight
    simp only [decide_eq_true_eq] at atLeft atRight
    simp [Label.notAfter, atLeft, atRight]
  have kept := (List.sublist_mergeSort Label.notAfter_trans Label.notAfter_total together
    List.filter_sublist).filter (·.position = position)
  rw [List.filter_filter] at kept
  simp only [Bool.and_self] at kept
  have sameLength := ((List.mergeSort_perm labels Label.notAfter).filter (·.position = position)).length_eq
  exact (kept.eq_of_length sameLength.symm).symm

/-! ## Arranged lines -/

/-- The labels stand on the line in stable order of their positions. The first stands at its position, and each later
one there or one blank after the label before it, whatever is further right. So they do not touch, none stands to the
left of its position, and one stands to the right of it only where the label before it is in the way, and then as close
to that label as it may. -/
structure Arranged (labels : List Label) (line : String) (spots : List Spot) : Prop where
  perm : (spots.map Spot.label).Perm labels
  sorted : (spots.map Spot.label).Pairwise fun left right => left.position ≤ right.position
  stable : ∀ position, (spots.map Spot.label).filter (·.position = position) = labels.filter (·.position = position)
  first : ∀ spot ∈ spots.head?, (spot.start : Int) = spot.label.position
  later : spots.IsChain Spot.Follows
  written : Written line.toList 0 spots
  apart : spots.Pairwise Spot.LeftOf
  not_left : ∀ spot ∈ spots, spot.label.position ≤ spot.start
  moved : spots.IsChain fun previous spot => spot.label.position < spot.start →
    spot.label.position ≤ previous.stop ∧ spot.start = previous.stop + 1

theorem arranged_labelLine {labels : List Label} (nonneg : ∀ label ∈ labels, 0 ≤ label.position) :
    Arranged labels ((labelLine labels).render false) (spots 0 (labels.mergeSort Label.notAfter)) := by
  have sorted := List.pairwise_mergeSort Label.notAfter_trans Label.notAfter_total labels
  have nonnegSorted : ∀ label ∈ labels.mergeSort Label.notAfter, 0 ≤ label.position :=
    fun label member => nonneg label (List.mem_mergeSort.1 member)
  have follow := isChain_spots_zero (labels.mergeSort Label.notAfter)
  constructor
  case perm =>
    rw [map_label_spots]
    exact List.mergeSort_perm labels _
  case sorted =>
    rw [map_label_spots]
    simpa only [Label.notAfter, decide_eq_true_eq] using sorted
  case stable =>
    intro position
    rw [map_label_spots, filter_mergeSort]
  case first => exact start_of_head nonnegSorted
  case later => exact follow
  case written => exact written_place [] (labels.mergeSort Label.notAfter)
  case apart => exact (follow.imp fun _ _ follows => follows.leftOf).pairwise
  case not_left => exact fun _ => position_le_start
  case moved =>
    refine follow.imp ?_
    intro previous spot follows right
    rw [Spot.Follows] at follows
    omega

/-- The line of labels is arranged, whatever its colours, once the escape sequences are taken out. -/
theorem label_line_is_arranged {labels : List Label} (nonneg : ∀ label ∈ labels, 0 ≤ label.position) :
    ∃ spots, ∀ color, Arranged labels (Text.removeEscapes ((labelLine labels).render color)) spots := by
  refine ⟨spots 0 (labels.mergeSort Label.notAfter), ?_⟩
  intro color
  have plain : Styled.Uses Unbold Text.isPlain (labelLine labels) := uses_place Text.isPlain_of_isBasic 0 _
  rw [Styled.removeEscapes_render_any plain]
  exact arranged_labelLine nonneg

/-- Labels that push each other to the right. -/
def crowded : List Label :=
  [{ id := some 12, position := 8, color := some .green }, { id := some 3, position := 2, color := none },
    { id := some (-1), position := 2, color := some .cyan }, { id := none, position := 0, color := some .blue },
    { id := some 4, position := 40, color := some .green }]

theorem mergeSort_crowded : crowded.mergeSort Label.notAfter =
    [{ id := none, position := 0, color := some .blue }, { id := some 3, position := 2, color := none },
      { id := some (-1), position := 2, color := some .cyan }, { id := some 12, position := 8, color := some .green },
      { id := some 4, position := 40, color := some .green }] := by
  simp [crowded, List.mergeSort, Label.notAfter]

theorem crowded_line_is_arranged :
    (labelLine crowded).render false = "[None] [3] [-1] [12]                    [4]" ∧
      (∀ label ∈ crowded, 0 ≤ label.position) ∧
      ∃ spots, ∀ color, Arranged crowded (Text.removeEscapes ((labelLine crowded).render color)) spots := by
  have placed : labelLine crowded = place 0 (crowded.mergeSort Label.notAfter) := rfl
  refine ⟨?_, by decide, label_line_is_arranged (by decide)⟩
  rw [placed, mergeSort_crowded]
  decide

end BetaStepper.Display
