import VisualNovel.Dict

namespace VisualNovel

namespace Bindings

theorem find?_of_mem_once {bindings : List (String × α)} (once : (bindings.map Prod.fst).Nodup)
    (member : (key, value) ∈ bindings) : find? key bindings = some value := by
  obtain ⟨front, back, rfl⟩ := List.append_of_mem member
  refine List.lookup_eq_some_iff.2 ⟨front, back, rfl, fun binding early => ?_⟩
  rw [List.map_append, List.nodup_append] at once
  have apart := once.2.2 binding.1 (List.mem_map_of_mem early) key (List.mem_cons_self ..)
  exact bne_iff_ne.2 apart.symm

theorem Increasing.once {bindings : List (String × α)} (sorted : Increasing bindings) :
    (bindings.map Prod.fst).Nodup := by
  refine List.pairwise_map.2 (sorted.imp ?_)
  intro earlier later before same
  exact String.lt_irrefl later.1 (same ▸ before)

theorem find?_of_mem (sorted : Increasing bindings) (member : (key, value) ∈ bindings) :
    find? key bindings = some value := find?_of_mem_once sorted.once member

theorem mem_of_find? {bindings : List (String × α)}
    (found : find? key bindings = some value) : (key, value) ∈ bindings := by
  obtain ⟨front, back, rfl, -⟩ := List.lookup_eq_some_iff.1 found
  exact List.mem_append_right front (List.mem_cons_self ..)

theorem find?_tail (sorted : Increasing ((key, value) :: rest)) : find? key rest = none :=
  find?_eq_none_of_lt (List.pairwise_cons.1 sorted).1

end Bindings

namespace Dict

theorem contains_eq_true {map : Dict α} :
    map.contains key = true ↔ ∃ value, map.get? key = some value := by
  simp [contains, Option.isSome_iff_exists]

theorem mem_toList {map : Dict α} : (key, value) ∈ map.toList ↔ map.get? key = some value :=
  ⟨Bindings.find?_of_mem map.increasing, Bindings.mem_of_find?⟩

theorem mem_earlier {map : Dict α} (listed : map.toList = earlier ++ (key, value) :: later)
    (member : binding ∈ map.toList) (before : binding.1 < key) : binding ∈ earlier := by
  have sorted : Bindings.Increasing (earlier ++ (key, value) :: later) := listed ▸ map.increasing
  have behind := (List.pairwise_cons.1 (List.pairwise_append.1 sorted).2.1).1
  rw [listed] at member
  rcases List.mem_append.1 member with early | late
  · exact early
  · rcases List.mem_cons.1 late with rfl | later
    · exact absurd before (String.lt_irrefl key)
    · exact absurd before (String.lt_asymm (behind _ later))

theorem mem_keys {map : Dict α} : key ∈ map.keys ↔ map.contains key = true := by
  rw [contains_eq_true]
  constructor
  · intro member
    obtain ⟨binding, inside, rfl⟩ := List.mem_map.1 member
    exact ⟨binding.2, mem_toList.1 inside⟩
  · rintro ⟨value, found⟩
    exact List.mem_map.2 ⟨_, mem_toList.2 found, rfl⟩

theorem contains_insert (map : Dict α) (key : String) (value : α) (sought : String) :
    (map.insert key value).contains sought = (decide (sought = key) || map.contains sought) := by
  by_cases asked : sought = key <;> simp [contains, get?_insert, asked]

-- The keys, as a map that holds nothing else.
def domain (map : Dict α) : Dict Unit :=
  ⟨map.bindings.map fun binding => (binding.1, ()),
    List.pairwise_map.2 (map.increasing.imp id)⟩

theorem keys_domain (map : Dict α) : map.domain.keys = map.keys := by simp [domain, keys]

theorem contains_domain (map : Dict α) (key : String) :
    map.domain.contains key = map.contains key := by
  rw [Bool.eq_iff_iff, ← mem_keys, ← mem_keys, keys_domain]

theorem keys_eq_of_contains {left : Dict α} {right : Dict β}
    (same : ∀ key, left.contains key = right.contains key) : left.keys = right.keys := by
  have equal : left.domain = right.domain := by
    apply ext_get?
    intro key
    have known : left.domain.contains key = right.domain.contains key := by
      rw [contains_domain, contains_domain, same]
    cases onLeft : left.domain.get? key <;> cases onRight : right.domain.get? key <;>
      simp_all [contains]
  rw [← keys_domain, equal, keys_domain]

theorem contains_of_keys_eq {left : Dict α} {right : Dict β} (same : left.keys = right.keys)
    (key : String) : left.contains key = right.contains key := by
  rw [Bool.eq_iff_iff, ← mem_keys, ← mem_keys, same]

theorem keys_insert_of_contains {map : Dict α} (known : map.contains key = true) :
    (map.insert key value).keys = map.keys := by
  apply keys_eq_of_contains
  intro sought
  rw [contains_insert]
  by_cases asked : sought = key
  · simp [asked, known]
  · simp [asked]

-- Bindings in key order are written one after the other without undoing each other.
theorem get?_insertAll {entries : List (String × α)} (sorted : Bindings.Increasing entries)
    (map : Dict α) (key : String) :
    (entries.foldl (fun map binding => map.insert binding.1 binding.2) map).get? key =
      (Bindings.find? key entries).or (map.get? key) := by
  induction entries generalizing map with
  | nil => rfl
  | cons head rest ih =>
    rw [List.foldl_cons, ih (List.pairwise_cons.1 sorted).2, get?_insert]
    by_cases asked : key = head.1
    · subst asked
      simp [Bindings.find?_cons, Bindings.find?_tail sorted]
    · simp [Bindings.find?_cons, asked, Ne.symm asked]

theorem ofList_toList (map : Dict α) : ofList map.toList = map := by
  apply ext_get?
  intro key
  have collected := get?_insertAll map.increasing empty key
  rw [get?_empty, Option.or_none] at collected
  exact collected

theorem toList_ofList {entries : List (String × α)} (sorted : Bindings.Increasing entries) :
    (ofList entries).toList = entries := congrArg toList (ofList_toList ⟨entries, sorted⟩)

end Dict

end VisualNovel
