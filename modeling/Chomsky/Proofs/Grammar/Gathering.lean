import Mathlib.Data.List.Induction
import Mathlib.Data.List.Sort
import Chomsky.Grammar.Basic

/-!
# What comes together under one left-hand side

Declared symbols are kept once, and productions are gathered by their left-hand sides. In both
cases the first occurrence decides on the place (`KeepsFirsts`). A production set that was made by
adding productions in order holds, under each left-hand side, the alternatives of all productions
that have it, in order (`Gathers`). Both properties leave no choice (`KeepsFirsts.unique`,
`Gathers.unique`).
-/

namespace Chomsky

/-! ## First occurrences -/

/-- The words of the first list, each once, in the order in which they first come there. -/
structure KeepsFirsts (all kept : List Word) : Prop where
  mem_iff : ∀ w, w ∈ kept ↔ w ∈ all
  order : kept.Pairwise fun v w => all.idxOf v < all.idxOf w

theorem KeepsFirsts.unique {all kept others : List Word} (one : KeepsFirsts all kept)
    (other : KeepsFirsts all others) : kept = others := by
  have irrefl : Std.Irrefl fun v w => all.idxOf v < all.idxOf w := ⟨fun _ => Nat.lt_irrefl _⟩
  have antisymm : Std.Antisymm fun v w => all.idxOf v < all.idxOf w :=
    ⟨fun _ _ before behind => absurd before (Nat.lt_asymm behind)⟩
  refine one.order.eq_of_mem_iff other.order fun w => ?_
  rw [one.mem_iff, other.mem_iff]

namespace Grammar

theorem distinct_concat (symbols : List Word) (symbol : Word) :
    distinct (symbols ++ [symbol]) =
      if symbol ∈ symbols then distinct symbols else distinct symbols ++ [symbol] := by
  have alone : [symbol].eraseDups = [symbol] := by simp [List.eraseDups_cons]
  rw [distinct, List.eraseDups_append]
  split
  · next old => simp [List.removeAll, old, distinct]
  · next new => simp [List.removeAll, new, distinct, alone]

theorem keepsFirsts_distinct (symbols : List Word) : KeepsFirsts symbols (distinct symbols) where
  mem_iff := fun _ => mem_distinct
  order := by
    induction symbols using List.reverseRecOn with
    | nil => exact .nil
    | append_singleton symbols symbol ih =>
      -- What stands in front keeps its place.
      have placed : ∀ w ∈ distinct symbols, (symbols ++ [symbol]).idxOf w = symbols.idxOf w :=
        fun w member => List.idxOf_append_of_mem (mem_distinct.1 member)
      have front : (distinct symbols).Pairwise fun v w =>
          (symbols ++ [symbol]).idxOf v < (symbols ++ [symbol]).idxOf w := by
        refine ih.imp_of_mem fun {v w} first second before => ?_
        rwa [placed v first, placed w second]
      rw [distinct_concat]
      split
      · exact front
      · next new =>
        refine List.pairwise_append.2 ⟨front, List.pairwise_singleton .., ?_⟩
        intro v member w last
        obtain rfl := List.mem_singleton.1 last
        rw [placed v member, List.idxOf_append_of_notMem new]
        exact Nat.lt_add_right _ (List.idxOf_lt_length_of_mem (mem_distinct.1 member))

/-- The first symbol with a property is found among first occurrences. -/
theorem find?_distinct (test : Word → Bool) (symbols : List Word) :
    (distinct symbols).find? test = symbols.find? test := by
  induction symbols using List.reverseRecOn with
  | nil => rfl
  | append_singleton symbols symbol ih =>
    rw [distinct_concat, List.find?_append]
    split
    · next old =>
      rw [ih]
      cases found : symbols.find? test with
      | some first => rfl
      | none =>
        have refused := List.find?_eq_none.1 found symbol old
        simp [refused]
    · rw [List.find?_append, ih]

end Grammar

/-! ## Gathered productions -/

/-- Adding a production leaves the others as they were; its alternatives come behind those that
its left-hand side has. -/
theorem Production.of_mem_addTo {q p : Production} {ps : List Production}
    (nodup : (ps.map left).Nodup) (member : p ∈ q.addTo ps) :
    (p ∈ ps ∧ p.left ≠ q.left) ∨
      (∃ r ∈ ps, r.left = q.left ∧ p = ⟨r.left, r.alternatives ++ q.alternatives⟩) ∨
      (q.left ∉ ps.map left ∧ p = q) := by
  induction ps with
  | nil => exact .inr (.inr ⟨List.not_mem_nil, List.mem_singleton.1 member⟩)
  | cons r rest ih =>
    obtain ⟨fresh, nodup⟩ := List.nodup_cons.1 nodup
    rw [addTo] at member
    split at member
    · next same =>
      rcases List.mem_cons.1 member with rfl | later
      · exact .inr (.inl ⟨r, List.mem_cons_self, same, rfl⟩)
      · refine .inl ⟨List.mem_cons_of_mem r later, fun again => fresh ?_⟩
        rw [same, ← again]
        exact List.mem_map_of_mem later
    · next other =>
      rcases List.mem_cons.1 member with rfl | later
      · exact .inl ⟨List.mem_cons_self, other⟩
      · rcases ih nodup later with ⟨old, apart⟩ | ⟨s, old, same, sum⟩ | ⟨new, same⟩
        · exact .inl ⟨List.mem_cons_of_mem r old, apart⟩
        · exact .inr (.inl ⟨s, List.mem_cons_of_mem r old, same, sum⟩)
        · refine .inr (.inr ⟨?_, same⟩)
          rw [List.map_cons, List.mem_cons, not_or]
          exact ⟨fun again => other again.symm, new⟩

/-- The entries gather the productions: each left-hand side stands where it came first, with the
alternatives of all productions that have it, in order. -/
structure Gathers (qs entries : List Production) : Prop where
  lefts : KeepsFirsts (qs.map Production.left) (entries.map Production.left)
  alternatives : ∀ p ∈ entries,
    p.alternatives = (qs.filter fun q => q.left = p.left).flatMap Production.alternatives

theorem Gathers.unique {qs entries others : List Production} (one : Gathers qs entries)
    (other : Gathers qs others) : entries = others := by
  have rebuilt : ∀ {ps}, Gathers qs ps → ps = (ps.map Production.left).map fun left =>
      ⟨left, (qs.filter fun q => q.left = left).flatMap Production.alternatives⟩ := by
    intro ps gathers
    rw [List.map_map]
    conv => lhs; rw [← List.map_id ps]
    refine List.map_congr_left fun p member => ?_
    rw [Function.comp_apply, ← gathers.alternatives p member, id_eq]
  rw [rebuilt one, rebuilt other, one.lefts.unique other.lefts]

namespace Productions

theorem ofList_concat (qs : List Production) (q : Production) :
    ofList (qs ++ [q]) = (ofList qs).add q := List.foldl_concat ..

theorem map_left_ofList (qs : List Production) :
    (ofList qs).entries.map Production.left = Grammar.distinct (qs.map Production.left) := by
  induction qs using List.reverseRecOn with
  | nil => rfl
  | append_singleton qs q ih =>
    rw [ofList_concat, add, Production.map_left_addTo, ih, List.map_append, List.map_singleton,
      Grammar.distinct_concat]
    simp only [Grammar.mem_distinct]

theorem gathers_ofList (qs : List Production) : Gathers qs (ofList qs).entries where
  lefts := map_left_ofList qs ▸ Grammar.keepsFirsts_distinct _
  alternatives := by
    induction qs using List.reverseRecOn with
    | nil =>
      intro p member
      cases member
    | append_singleton qs q ih =>
      intro p member
      rw [List.filter_append, List.flatMap_append]
      rw [ofList_concat] at member
      rcases Production.of_mem_addTo (ofList qs).nodup member with
        ⟨old, apart⟩ | ⟨r, old, same, rfl⟩ | ⟨new, rfl⟩
      · simp [ih p old, apart.symm]
      · simp [ih r old, same]
      · rw [map_left_ofList, Grammar.mem_distinct] at new
        have absent : qs.filter (fun earlier => earlier.left = p.left) = [] := by
          refine List.filter_eq_nil_iff.2 fun earlier inside same => new ?_
          rw [← of_decide_eq_true same]
          exact List.mem_map_of_mem inside
        simp [absent]

example :
    (ofList [⟨['S'], [['a']]⟩, ⟨['A'], [['b']]⟩, ⟨['S'], [['c'], ['a']]⟩]).entries =
      [⟨['S'], [['a'], ['c'], ['a']]⟩, ⟨['A'], [['b']]⟩] := by
  decide

theorem eq_ofList_iff {ps : Productions} {qs : List Production} :
    ps = ofList qs ↔ Gathers qs ps.entries := by
  constructor
  · rintro rfl
    exact gathers_ofList qs
  · intro gathers
    exact eq_of_entries (gathers.unique (gathers_ofList qs))

end Productions

end Chomsky
