import Chomsky.Derivation.Successors

/-!
# Successors of a packed form, one at a time

The search keeps its forms packed in strings. `Grammar.sweep` makes the successors of a packed form
in the order of `Grammar.successors` and hands each to a step as soon as it is made; a step that
answers `none` ends the sweep, so that the forms behind it are never made. Main statement:
`Grammar.sweep_eq_foldlM`.
-/

namespace Chomsky

variable {σ : Type}

namespace Packed

/-- The place behind a text that stands at a place of a form. -/
def behind? {form : String} : (needle : Text) → (place : form.Pos) → Option form.Pos
  | [], place => some place
  | c :: needle, place =>
    if h : place = form.endPos then none
    else if place.get h = c then behind? needle (place.next h)
    else none

/-- What stands before a place of a form. -/
def textTo {form : String} (place : form.Pos) : Text := (form.sliceTo place).copy.toList

/-- What stands at a place of a form and behind it. -/
def textFrom {form : String} (place : form.Pos) : Text := (form.sliceFrom place).copy.toList

theorem textFrom_endPos (form : String) : textFrom form.endPos = [] := by
  simp [textFrom, (String.splits_endPos form).copy_sliceFrom_eq]

theorem textFrom_of_ne {form : String} (place : form.Pos) (h : place ≠ form.endPos) :
    textFrom place = place.get h :: textFrom (place.next h) := by
  simp [textFrom, (place.splits_next_right h).copy_sliceFrom_eq]

theorem textTo_next {form : String} (place : form.Pos) (h : place ≠ form.endPos) :
    textTo (place.next h) = textTo place ++ [place.get h] := by
  simp [textTo, (place.splits_next h).copy_sliceTo_eq]

theorem textTo_startPos (form : String) : textTo form.startPos = [] := by
  simp [textTo, (String.splits_startPos form).copy_sliceTo_eq]

theorem textFrom_startPos (form : String) : textFrom form.startPos = form.toList := by
  simp [textFrom]

theorem map_textFrom_behind? {form : String} (needle : Text) (place : form.Pos) :
    (behind? needle place).map textFrom = Text.dropPrefix? needle (textFrom place) := by
  induction needle generalizing place with
  | nil => rfl
  | cons c needle ih =>
    rw [behind?]
    split
    · next h => rw [h, textFrom_endPos]; rfl
    · next h =>
      rw [textFrom_of_ne place h, Text.dropPrefix?]
      split
      · next hc => rw [if_pos hc.symm]; exact ih _
      · next hc => rw [if_neg (fun e => hc e.symm)]; rfl

end Packed

namespace Production

/-- Hands on the forms with each alternative in turn between two texts. -/
def fill (step : σ → String → Option σ) (before after : String) : List Word → σ → Option σ
  | [], s => some s
  | right :: rights, s =>
    match step s (before ++ (String.ofList (replacement right) ++ after)) with
    | none => none
    | some t => fill step before after rights t

/-- Hands on the forms that come of the occurrences from a place of the form onwards. -/
def sweepFrom (p : Production) (step : σ → String → Option σ) {form : String} (place : form.Pos)
    (s : σ) : Option σ :=
  if h : place = form.endPos then some s
  else
    match Packed.behind? p.left place with
    | none => p.sweepFrom step (place.next h) s
    | some behind =>
      match fill step (form.sliceTo place).copy (form.sliceFrom behind).copy p.alternatives s with
      | none => none
      | some t => p.sweepFrom step (place.next h) t
termination_by place

/-- Hands on the forms one step away by rules of one production. -/
def sweep (p : Production) (step : σ → String → Option σ) (form : String) (s : σ) : Option σ :=
  if p.left.isEmpty then some s else p.sweepFrom step form.startPos s

theorem fill_eq_foldlM (step : σ → String → Option σ) (before after : String)
    (rights : List Word) (s : σ) :
    fill step before after rights s =
      (rights.map fun right => before.toList ++ replacement right ++ after.toList).foldlM
        (fun s w => step s (String.ofList w)) s := by
  induction rights generalizing s with
  | nil => rfl
  | cons right rights ih =>
    have hw : String.ofList (before.toList ++ replacement right ++ after.toList) =
        before ++ (String.ofList (replacement right) ++ after) := by
      apply String.toList_injective
      simp
    rw [List.map_cons, List.foldlM_cons, hw, fill]
    cases step s (before ++ (String.ofList (replacement right) ++ after)) with
    | none => rfl
    | some t => exact ih t

theorem sweepFrom_eq_foldlM (p : Production) (step : σ → String → Option σ) {form : String}
    (place : form.Pos) (s : σ) (left_ne : p.left ≠ []) :
    p.sweepFrom step place s =
      ((Text.cuts p.left (Packed.textFrom place)).flatMap fun (before, after) =>
        p.alternatives.map fun right =>
          Packed.textTo place ++ before ++ replacement right ++ after).foldlM
        (fun s w => step s (String.ofList w)) s := by
  induction place using String.Pos.next_induction generalizing s with
  | endPos =>
    rw [sweepFrom, dif_pos rfl, Packed.textFrom_endPos]
    rfl
  | next place h ih =>
    have hnext : ∀ t, p.sweepFrom step (place.next h) t =
        (((Text.cuts p.left (Packed.textFrom (place.next h))).map fun (before, after) =>
            (place.get h :: before, after)).flatMap fun (before, after) =>
          p.alternatives.map fun right =>
            Packed.textTo place ++ before ++ replacement right ++ after).foldlM
          (fun s w => step s (String.ofList w)) t := by
      intro t
      rw [ih t, List.flatMap_map, Packed.textTo_next]
      simp
    have hbehind := Packed.map_textFrom_behind? p.left place
    rw [sweepFrom, dif_neg h, Packed.textFrom_of_ne place h, Text.cuts,
      if_neg (by simpa using left_ne), ← Packed.textFrom_of_ne place h, ← hbehind]
    cases Packed.behind? p.left place with
    | none => simpa using hnext s
    | some behind =>
      simp only [Option.map_some, Option.toList_some, List.map_cons, List.map_nil,
        List.singleton_append, List.flatMap_cons, List.append_nil, List.foldlM_append]
      rw [fill_eq_foldlM, ← Packed.textTo, ← Packed.textFrom]
      cases List.foldlM (fun s w => step s (String.ofList w)) s
          (p.alternatives.map fun right =>
            Packed.textTo place ++ replacement right ++ Packed.textFrom behind) with
      | none => rfl
      | some t => simpa using hnext t

theorem sweep_eq_foldlM (p : Production) (step : σ → String → Option σ) (form : String) (s : σ) :
    p.sweep step form s =
      (p.successors form.toList).foldlM (fun s w => step s (String.ofList w)) s := by
  unfold sweep
  split
  · next h =>
    rw [successors, Text.cuts_of_isEmpty h]
    rfl
  · next h =>
    rw [sweepFrom_eq_foldlM p step _ s (by simpa using h), Packed.textFrom_startPos,
      Packed.textTo_startPos]
    simp [successors]

end Production

namespace Grammar

/-- Hands on the forms one step away by rules of some productions. -/
def sweepThrough (step : σ → String → Option σ) (form : String) : List Production → σ → Option σ
  | [], s => some s
  | p :: ps, s =>
    match p.sweep step form s with
    | none => none
    | some t => sweepThrough step form ps t

/-- Hands on the forms one step away. -/
def sweep (g : Grammar) (step : σ → String → Option σ) (form : String) (s : σ) : Option σ :=
  sweepThrough step form g.productions.entries s

theorem sweepThrough_eq_foldlM (step : σ → String → Option σ) (form : String)
    (ps : List Production) (s : σ) :
    sweepThrough step form ps s =
      (ps.flatMap fun p => p.successors form.toList).foldlM
        (fun s w => step s (String.ofList w)) s := by
  induction ps generalizing s with
  | nil => rfl
  | cons p ps ih =>
    rw [sweepThrough, List.flatMap_cons, List.foldlM_append, p.sweep_eq_foldlM]
    cases List.foldlM (fun s w => step s (String.ofList w)) s (p.successors form.toList) with
    | none => rfl
    | some t => exact ih t

/-- A sweep is a fold over the list of successors. -/
theorem sweep_eq_foldlM (g : Grammar) (step : σ → String → Option σ) (form : String) (s : σ) :
    g.sweep step form s =
      (g.successors form.toList).foldlM (fun s w => step s (String.ofList w)) s :=
  sweepThrough_eq_foldlM step form _ s

end Grammar

end Chomsky
