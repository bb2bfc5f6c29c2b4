import Chomsky.Text.Basic

/-!
# Productions

A production gives the alternatives of one left-hand side. A production set holds each left-hand
side once, in the order in which they first came; alternatives of a repeated left-hand side are
appended to those it has.
-/

namespace Chomsky

/-- A string of symbols: a declared symbol, a side of a rule or a sentential form. -/
abbrev Word := Text

/-- Stands for the empty string on the right of a rule and as a target. -/
def emptyMarker : Word := ['$']

structure Production where
  left : Word
  alternatives : List Word
  deriving DecidableEq, Repr

/-- One left-hand side with one of its alternatives. -/
structure Rule where
  left : Word
  right : Word
  deriving DecidableEq, Repr

/-- A rule as `A -> aA`. -/
def Rule.display (r : Rule) : Text := r.left ++ " -> ".toList ++ r.right

def Production.rules (p : Production) : List Rule := p.alternatives.map fun right => ⟨p.left, right⟩

namespace Production

/-- Appends the alternatives to the production of the same left-hand side, or the whole production
at the end when there is none. -/
def addTo (q : Production) : List Production → List Production
  | [] => [q]
  | p :: rest =>
    if p.left = q.left then ⟨p.left, p.alternatives ++ q.alternatives⟩ :: rest
    else p :: addTo q rest

theorem map_left_addTo (q : Production) (ps : List Production) :
    (q.addTo ps).map left =
      if q.left ∈ ps.map left then ps.map left else ps.map left ++ [q.left] := by
  induction ps with
  | nil => rfl
  | cons p rest ih =>
    by_cases h : p.left = q.left
    · simp [addTo, h]
    · have h' : ¬ q.left = p.left := fun e => h e.symm
      by_cases hm : q.left ∈ rest.map left <;> simp_all [addTo]

theorem nodup_addTo {ps : List Production} (q : Production) (h : (ps.map left).Nodup) :
    ((q.addTo ps).map left).Nodup := by
  rw [map_left_addTo]
  split
  · exact h
  · next hq =>
    refine List.nodup_append.2 ⟨h, by simp, ?_⟩
    rintro a ha b hb rfl
    exact hq (List.mem_singleton.1 hb ▸ ha)

end Production

structure Productions where
  entries : List Production
  nodup : (entries.map Production.left).Nodup
  deriving DecidableEq, Repr

namespace Productions

theorem eq_of_entries {ps qs : Productions} (same : ps.entries = qs.entries) : ps = qs := by
  cases ps
  cases qs
  cases same
  rfl

def empty : Productions := ⟨[], List.nodup_nil⟩

def add (ps : Productions) (q : Production) : Productions :=
  ⟨q.addTo ps.entries, q.nodup_addTo ps.nodup⟩

/-- Adds productions in order. -/
def ofList (qs : List Production) : Productions := qs.foldl add empty

/-- Every rule, in declaration order. -/
def rules (ps : Productions) : List Rule := ps.entries.flatMap Production.rules

end Productions

end Chomsky
