import WSNet2.Game.Room.Dispatch

/-!
# Property updates

`msgRoomProp` and `msgClientProp` merge an update into a props dict with the loop
`mergeProps` models. The spec's merge deletes a key whose update value is empty, present
or not (`specMergeProps`). The code deletes only a key that is present; an empty value for
an absent key is stored, so a dict can come to hold a zero-length value
(`mergeProps_absent_empty`), and a master's `MsgRoomProp` reaches that case from a freshly
created room (`roomProp_keeps_empty_value`). At each key, the code's merge keeps what
the update does not name, deletes a present key the update empties, and otherwise takes
the update's value (`mergeProps_lookup`).
-/

namespace WSNet2
namespace Game

open Binary

/-- The merge the spec states: an entry with an empty value deletes its key, present or
not; any other entry sets the key to its value. -/
def specMergeProps (props upd : Dict) : Dict :=
  upd.entries.foldl (fun d e => if e.2.length = 0 then d.erase e.1 else d.insert e.1 e.2) props

/-- The merge loop over a list of entries with distinct keys, at key `k`. -/
theorem lookup_foldl_merge (k : Bytes) :
    ∀ (l : List (Σ _ : Bytes, Bytes)), l.NodupKeys → ∀ d : Dict,
      (l.foldl (fun d e => if e.1 ∈ d ∧ e.2.length = 0 then d.erase e.1 else d.insert e.1 e.2)
        d).lookup k =
      match l.dlookup k with
      | none => d.lookup k
      | some v => if k ∈ d ∧ v = [] then none else some v
  | [], _, d => rfl
  | ⟨k', v'⟩ :: l, hl, d => by
    rw [List.nodupKeys_cons] at hl
    rw [List.foldl_cons, lookup_foldl_merge k l hl.2]
    by_cases hk : k' = k
    · subst hk
      rw [List.dlookup_cons_eq, List.dlookup_eq_none.2 hl.1]
      simp only [List.length_eq_zero]
      split_ifs
      · exact AList.lookup_erase _ _
      · exact AList.lookup_insert _
    · rw [List.dlookup_cons_ne _ _ (Ne.symm hk)]
      have hne : k ≠ k' := Ne.symm hk
      have hl : (if k' ∈ d ∧ v'.length = 0 then d.erase k' else d.insert k' v').lookup k =
          d.lookup k := by
        split_ifs
        · exact AList.lookup_erase_ne hne
        · exact AList.lookup_insert_ne hne
      have hm : k ∈ (if k' ∈ d ∧ v'.length = 0 then d.erase k' else d.insert k' v') ↔ k ∈ d := by
        rw [← AList.lookup_isSome, hl, AList.lookup_isSome]
      cases l.dlookup k with
      | none => exact hl
      | some v => simp only [hm]

/-- `mergeProps` at each key: a key the update does not name keeps its value; a key the
update sets to `v` takes `v`, except that an empty `v` deletes a key that was present. -/
theorem mergeProps_lookup (props upd : Dict) (k : Bytes) :
    (mergeProps props upd).lookup k =
      match upd.lookup k with
      | none => props.lookup k
      | some v => if k ∈ props ∧ v = [] then none else some v :=
  lookup_foldl_merge k upd.entries upd.nodupKeys props

/-- Both merges agree on an entry whose key is present or whose value is not empty. -/
theorem mergeProps_eq_spec_of_mem (props : Dict) (k v : Bytes) (h : k ∈ props ∨ v ≠ []) :
    mergeProps props ((∅ : Dict).insert k v) =
      specMergeProps props ((∅ : Dict).insert k v) := by
  simp only [mergeProps, specMergeProps, AList.insert_entries, AList.empty_entries,
    List.kerase_nil, List.foldl_cons, List.foldl_nil, List.length_eq_zero]
  by_cases hv : v = []
  · simp [hv, h.resolve_right (not_not.2 hv)]
  · simp [hv]

/-- An empty value for an absent key is stored rather than dropped. -/
theorem mergeProps_absent_empty (props : Dict) (k : Bytes) (h : k ∉ props) :
    (mergeProps props ((∅ : Dict).insert k [])).lookup k = some [] ∧
      (specMergeProps props ((∅ : Dict).insert k [])).lookup k = none := by
  simp [mergeProps, specMergeProps, h]

/-- The master of a freshly created room sends `MsgRoomProp` whose public update sets key
`k` to an empty value; `k` was not set, and the room keeps `k ↦ []` where the spec's merge
leaves no `k`. -/
theorem roomProp_keeps_empty_value :
    let p : RoomPropPayload := ⟨true, true, true, 0, 4, 0, (∅ : Dict).insert [107] [], ∅, []⟩
    ∃ r₁, Reachable createdRoom r₁ ∧ createdRoom.loopStep 6 (.roomProp ⟨0, [77], true⟩ ⟨1, []⟩ p) = .ok r₁ ∧
      r₁.publicProps.lookup [107] = some [] ∧
      (specMergeProps createdRoom.publicProps p.publicProps).lookup [107] = none :=
  ⟨_, .step .refl (.dispatch 6 (.roomProp ⟨0, [77], true⟩ ⟨1, []⟩
    ⟨true, true, true, 0, 4, 0, (∅ : Dict).insert [107] [], ∅, []⟩) rfl rfl),
    rfl, rfl, rfl⟩

end Game
end WSNet2
