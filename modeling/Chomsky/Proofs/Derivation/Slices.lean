import Chomsky.Derivation.Search
import Chomsky.Proofs.Text.Occurrence

/-!
# Successors cut out at byte offsets

The successors of a form can be made by byte offsets alone: a scan says where the left-hand side
stands, and the form is cut in front of each match and behind it. Whatever the characters of the
form, no cut fails, and what comes of it are the successors that the search takes in, in the same
order (`Production.successors?_eq_some`). Main statement: `Text.scan?_exact`.
-/

namespace Chomsky

namespace Production

/-- The forms that come of the match at a byte offset; `none` when a cut fails. -/
def fillAt? (p : Production) (form : Word) (offset : Nat) : Option (List Word) := do
  let (before, _) ← Text.cutAt? offset form
  let (_, after) ← Text.cutAt? (offset + Text.byteLength p.left) form
  return p.alternatives.map fun right => before ++ replacement right ++ after

/-- The forms one step away by rules of one production; `none` when a cut fails. -/
def successors? (p : Production) (form : Word) : Option (List Word) := do
  let offsets ← Text.scan? p.left form
  let parts ← offsets.mapM (p.fillAt? form)
  return parts.flatten

theorem fillAt?_eq_some (p : Production) (before after : Word) :
    p.fillAt? (before ++ p.left ++ after) (Text.byteLength before) =
      some (p.alternatives.map fun right => before ++ replacement right ++ after) := by
  have front : Text.cutAt? (Text.byteLength before) (before ++ p.left ++ after) =
      some (before, p.left ++ after) :=
    Text.cutAt?_eq_some_iff.2 ⟨List.append_assoc .., rfl⟩
  have back : Text.cutAt? (Text.byteLength before + Text.byteLength p.left)
      (before ++ p.left ++ after) = some (before ++ p.left, after) :=
    Text.cutAt?_eq_some_iff.2 ⟨rfl, Text.byteLength_append ..⟩
  simp only [fillAt?, front, back, Option.bind_eq_bind, Option.bind_some, Option.pure_def]

theorem successors?_eq_some (p : Production) (form : Word) :
    p.successors? form = some (p.successors form) := by
  have parts : (Text.occurrences p.left form).mapM (p.fillAt? form) =
      some ((Text.cuts p.left form).map fun cut =>
        p.alternatives.map fun right => cut.1 ++ replacement right ++ cut.2) := by
    rw [Text.occurrences, List.mapM_map]
    refine mapM_eq_some_map fun cut member => ?_
    obtain ⟨before, after⟩ := cut
    have left_ne : p.left ≠ [] := fun empty => by
      simp [Text.cuts_of_isEmpty (List.isEmpty_iff.2 empty)] at member
    obtain rfl := (Text.mem_cuts_iff left_ne).1 member
    exact p.fillAt?_eq_some before after
  simp only [successors?, Text.scan?_eq_some, parts, Option.bind_eq_bind, Option.bind_some,
    Option.pure_def]
  rfl

end Production

namespace Text

/-- A scan for a needle that is not empty ends after at most one round for each character and one
more, and no cut fails in it. It finds, in increasing order, exactly the byte offsets at which the
bytes of the needle stand, overlaps included. Each match begins and ends between two characters, so
the cuts that put something in its place do not fail either, and they make the forms that the search
takes in. -/
theorem scan?_exact (needle hay : Text) (needle_ne : needle ≠ []) :
    WellFounded (GoesOn needle hay) ∧
      scan? needle hay = some (occurrences needle hay) ∧
      (occurrences needle hay).length ≤ hay.length ∧
      (occurrences needle hay).Pairwise (· < ·) ∧
      (∀ n, n ∈ occurrences needle hay ↔ OccursAt needle hay n) ∧
      (∀ n ∈ occurrences needle hay,
        IsBoundary hay n ∧ IsBoundary hay (n + byteLength needle)) ∧
      ∀ p : Production, p.left = needle →
        p.successors? hay = some (p.successors hay) ∧
          ∀ (σ : Type) (step : σ → String → Option σ) (s : σ),
            p.sweep step (String.ofList hay) s =
              (p.successors hay).foldlM (fun s w => step s (String.ofList w)) s := by
  refine ⟨goesOn_wellFounded needle hay, scan?_eq_some needle hay,
    length_occurrences_le needle_ne hay, pairwise_occurrences needle_ne hay,
    fun n => mem_occurrences_iff needle_ne, fun n member => ?_, fun p _ => ?_⟩
  · obtain ⟨before, after, rfl, rfl⟩ :=
      (occursAt_iff needle_ne).1 ((mem_occurrences_iff needle_ne).1 member)
    constructor
    · exact isBoundary_iff.2 ⟨before, needle ++ after, List.append_assoc .., rfl⟩
    · exact isBoundary_iff.2 ⟨before ++ needle, after, rfl, byteLength_append ..⟩
  · refine ⟨p.successors?_eq_some hay, fun σ step s => ?_⟩
    rw [p.sweep_eq_foldlM, String.toList_ofList]

/-- Characters of two and of three bytes, and two matches that share a character. -/
theorem scan?_exact_accents :
    "éé".toList ≠ [] ∧
      scan? "éé".toList "ééé€éé".toList = some [0, 2, 9] ∧
      (∀ n ∈ [0, 2, 9],
        IsBoundary "ééé€éé".toList n ∧ IsBoundary "ééé€éé".toList (n + byteLength "éé".toList)) ∧
      Production.successors? ⟨"éé".toList, [['a'], emptyMarker]⟩ "ééé€éé".toList =
        some ["aé€éé".toList, "é€éé".toList, "éa€éé".toList, "é€éé".toList, "ééé€a".toList,
          "ééé€".toList] := by
  have filled : "éé".toList ≠ [] := by decide
  have offsets : occurrences "éé".toList "ééé€éé".toList = [0, 2, 9] := by decide
  obtain ⟨_, scanned, _, _, _, boundaries, cut⟩ := scan?_exact _ "ééé€éé".toList filled
  rw [offsets] at scanned boundaries
  exact ⟨filled, scanned, boundaries, (cut ⟨"éé".toList, [['a'], emptyMarker]⟩ rfl).1⟩

end Text

end Chomsky
