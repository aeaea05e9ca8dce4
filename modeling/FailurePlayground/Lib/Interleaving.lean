import Mathlib.Data.List.Basic

namespace FailurePlayground.Interleaving

/-!
# Merged sequences with owners

A merged list records who contributed each item.  Projecting it to one owner
recovers that owner's sequence; the merged list is an interleaving of a family
of sequences when every projection is the corresponding sequence.
-/

universe u v

variable {Owner : Type u} [DecidableEq Owner] {Item : Type v}

/-- One owner's items, in merged order. -/
def ofOwner (owner : Owner) (merged : List (Owner × Item)) : List Item :=
  (merged.filter fun entry => entry.1 = owner).map Prod.snd

@[simp] theorem ofOwner_nil (owner : Owner) :
    ofOwner owner ([] : List (Owner × Item)) = [] := rfl

/-- Appending an owner's item appends it to that owner's sequence. -/
theorem ofOwner_snoc_same
    (owner : Owner)
    (item : Item)
    (merged : List (Owner × Item)) :
    ofOwner owner (merged ++ [(owner, item)]) =
      ofOwner owner merged ++ [item] := by
  simp [ofOwner, List.filter_append]

/-- Appending another owner's item leaves a sequence alone. -/
theorem ofOwner_snoc_other
    {owner other : Owner}
    (different : other ≠ owner)
    (item : Item)
    (merged : List (Owner × Item)) :
    ofOwner owner (merged ++ [(other, item)]) =
      ofOwner owner merged := by
  simp [ofOwner, List.filter_append, different]

/-- An item is an owner's when it was merged under that owner. -/
@[simp] theorem mem_ofOwner
    {owner : Owner}
    {item : Item}
    {merged : List (Owner × Item)} :
    item ∈ ofOwner owner merged ↔ (owner, item) ∈ merged := by
  constructor
  · intro member
    obtain ⟨⟨_, _⟩, kept, rfl⟩ := List.mem_map.mp member
    obtain ⟨there, same⟩ := List.mem_filter.mp kept
    exact of_decide_eq_true same ▸ there
  · intro there
    exact
      List.mem_map.mpr
        ⟨(owner, item),
          List.mem_filter.mpr ⟨there, decide_eq_true rfl⟩, rfl⟩

/--
An item may be appended when its owner's earlier items are related to it; the
other sequences are as they were.
-/
theorem pairwise_ofOwner_snoc
    {Related : Item → Item → Prop}
    {owner : Owner}
    {item : Item}
    {merged : List (Owner × Item)} :
    (∀ query,
        (ofOwner query (merged ++ [(owner, item)])).Pairwise Related) ↔
      (∀ query, (ofOwner query merged).Pairwise Related) ∧
        ∀ earlier ∈ ofOwner owner merged, Related earlier item := by
  have split (query : Owner) :
      (ofOwner query (merged ++ [(owner, item)])).Pairwise Related ↔
        (ofOwner query merged).Pairwise Related ∧
          (query = owner →
            ∀ earlier ∈ ofOwner owner merged, Related earlier item) := by
    by_cases same : query = owner
    · subst same
      rw [ofOwner_snoc_same, List.pairwise_append]
      simp
    · rw [ofOwner_snoc_other (fun back => same back.symm)]
      exact
        ⟨fun ordered => ⟨ordered, fun again => absurd again same⟩,
          And.left⟩
  constructor
  · intro ordered
    exact
      ⟨fun query => ((split query).mp (ordered query)).1,
        ((split owner).mp (ordered owner)).2 rfl⟩
  · rintro ⟨ordered, related⟩ query
    exact (split query).mpr ⟨ordered query, fun _ => related⟩

end FailurePlayground.Interleaving
