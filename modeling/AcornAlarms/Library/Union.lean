import AcornAlarms.Library.FiniteMap

/-!
# Disjoint unions

The entries of one map are inserted into another, one after the other, and a key that is already
there is an error. What comes out does not depend on the order of the entries.
-/

namespace AcornAlarms.Library.FiniteMap

universe u v w

variable {Key : Type u} {Value : Type v} {Error : Type w} [DecidableEq Key]
  {duplicate : Key → Error} {entries : List (Key × Value)} {incoming : FiniteMap Key Value}

/-- Insert an entry whose key is new. -/
def insertNew (duplicate : Key → Error) (map : FiniteMap Key Value) (entry : Key × Value) :
    Except Error (FiniteMap Key Value) :=
  if map.contains entry.1 then .error (duplicate entry.1) else .ok (map.insert entry.1 entry.2)

/-- Entries with different keys are all inserted, or one of them has a key that was there. -/
theorem foldlM_insertNew (duplicate : Key → Error) (distinct : (entries.map Prod.fst).Nodup)
    (map : FiniteMap Key Value) :
    (∃ merged, entries.foldlM (insertNew duplicate) map = .ok merged ∧
        (∀ entry ∈ entries, map.get? entry.1 = none ∧ merged.get? entry.1 = some entry.2) ∧
        ∀ key ∉ entries.map Prod.fst, merged.get? key = map.get? key) ∨
      ∃ entry ∈ entries, (map.get? entry.1).isSome = true ∧
        entries.foldlM (insertNew duplicate) map = .error (duplicate entry.1) := by
  induction entries generalizing map with
  | nil => exact .inl ⟨map, rfl, fun _ member => absurd member List.not_mem_nil, fun _ _ => rfl⟩
  | cons head rest ih =>
      obtain ⟨fresh, distinct⟩ := List.nodup_cons.mp distinct
      have apart : ∀ entry ∈ rest, entry.1 ≠ head.1 := by
        intro entry member same
        exact fresh (same ▸ List.mem_map_of_mem member)
      have others : ∀ entry ∈ rest, (map.insert head.1 head.2).get? entry.1 = map.get? entry.1 :=
        fun entry member => get?_insert_of_ne _ _ (apart entry member)
      rw [List.foldlM_cons]
      cases taken : map.contains head.1 with
      | true =>
          refine .inr ⟨head, List.mem_cons_self, taken, ?_⟩
          rw [insertNew, if_pos taken]
          rfl
      | false =>
          have vacant : map.get? head.1 = none := by simpa [contains] using taken
          have inserted : insertNew duplicate map head = .ok (map.insert head.1 head.2) := by
            rw [insertNew, taken]
            rfl
          rw [inserted]
          obtain ⟨merged, folds, present, kept⟩ | ⟨entry, member, clash, folds⟩ :=
            ih distinct (map.insert head.1 head.2)
          · refine .inl ⟨merged, folds, fun entry member => ?_, fun key missing => ?_⟩
            · obtain rfl | later := List.mem_cons.mp member
              · exact ⟨vacant, by rw [kept _ fresh, get?_insert_self]⟩
              · obtain ⟨free, written⟩ := present entry later
                exact ⟨others entry later ▸ free, written⟩
            · obtain ⟨different, absent⟩ := not_or.mp (List.mem_cons.not.mp missing)
              rw [kept key absent, get?_insert_of_ne _ _ different]
          · exact .inr ⟨entry, List.mem_cons_of_mem _ member, others entry member ▸ clash, folds⟩

/-- The entries of a map, in any order, give the union of two maps without a common key, and name
a common key otherwise. -/
theorem union_cases (order : entries.Perm incoming.entries) (map : FiniteMap Key Value) :
    (∃ merged, entries.foldlM (insertNew duplicate) map = .ok merged ∧
        ∀ key, (map.get? key = none ∨ incoming.get? key = none) ∧
          merged.get? key = (incoming.get? key).or (map.get? key)) ∨
      ∃ key, (map.get? key).isSome = true ∧ (incoming.get? key).isSome = true ∧
        entries.foldlM (insertNew duplicate) map = .error (duplicate key) := by
  have names : incoming.entries.map Prod.fst = incoming.keys := by
    simp [FiniteMap.entries, keys, AList.keys, List.keys, Function.comp_def]
  have distinct : (entries.map Prod.fst).Nodup := by
    rw [(order.map Prod.fst).nodup_iff, names]
    exact incoming.keys_nodup
  have held : ∀ {key value}, (key, value) ∈ entries ↔ incoming.get? key = some value := by
    intro key value
    rw [order.mem_iff, mem_entries_iff]
  obtain ⟨merged, folds, present, kept⟩ | ⟨⟨key, value⟩, member, clash, folds⟩ :=
    foldlM_insertNew duplicate distinct map
  · refine .inl ⟨merged, folds, fun key => ?_⟩
    cases found : incoming.get? key with
    | some value =>
        obtain ⟨free, written⟩ := present (key, value) (held.mpr found)
        exact ⟨.inl free, written⟩
    | none =>
        refine ⟨.inr rfl, ?_⟩
        rw [kept key, Option.none_or]
        rintro member
        obtain ⟨⟨_, value⟩, inside, rfl⟩ := List.mem_map.mp member
        rw [held.mp inside] at found
        cases found
  · exact .inr ⟨key, clash, Option.isSome_iff_exists.mpr ⟨value, held.mp member⟩, folds⟩

end AcornAlarms.Library.FiniteMap
