import SageStore.Server.JsonReader

/-!
# The dataset codec

`JsonSerializer.deserialize` undoes `serialize` on every dataset that can be encoded, and
whatever it decodes can be encoded (`codec_roundTrip`). So one decoding of any text reaches a
dataset that further encoding and decoding keep.
-/

namespace SageStore

open Bytes

namespace JsonSerializer

@[simp] theorem strings_map (texts : List Bytes) : strings (texts.map .string) = texts := by
  unfold strings
  rw [List.filterMap_map]
  exact List.filterMap_some

/-- The columns that were decoded from the members of some keys. -/
theorem lookup_foldl_insert (column : Bytes → List Bytes) (keys : List Bytes) (ds : Dataset)
    (key : Bytes) :
    (keys.foldl (fun ds k => ds.insert k (column k)) ds).lookup key =
      if key ∈ keys then some (column key) else ds.lookup key := by
  -- a key that is repeated gets the same column again
  induction keys generalizing ds with
  | nil => simp
  | cons k keys ih =>
    rw [List.foldl_cons, ih]
    by_cases hmem : key ∈ keys
    · rw [if_pos hmem, if_pos (List.mem_cons_of_mem k hmem)]
    · by_cases hk : key = k
      · subst hk
        rw [if_neg hmem, if_pos List.mem_cons_self, Finmap.lookup_insert]
      · rw [if_neg hmem, if_neg (by simp [hk, hmem]), Finmap.lookup_insert_of_ne _ hk]

/-- The keys are written in increasing order. -/
theorem pairwise_sortedKeys (ds : Dataset) :
    (ds.keys.sort keyLE).Pairwise fun k k' => keyLE k k' ∧ k ≠ k' :=
  (Finset.pairwise_sort ds.keys keyLE).and (Finset.sort_nodup ds.keys keyLE)

/-- A dataset that is valid UTF-8 is decoded as it was encoded. -/
theorem deserialize_serialize {J : Json} (hJ : J.RoundTrips) {ds : Dataset} (h : ds.IsUtf8) :
    (serialize J ds).map (deserialize J) = some ds := by
  obtain ⟨t, ht⟩ := Option.isSome_iff_exists.mp ((serialize_isSome J ds).mpr h)
  rw [ht, Option.map_some]
  refine congrArg some ?_
  have hparse := hJ.parse_dump _ t
    (by rw [List.map_map]; exact (List.map_id _).symm ▸ pairwise_sortedKeys ds) ht
  have hblank : ¬ t.all isSpace = true := by
    obtain ⟨b, hb, hspace⟩ := hJ.dump_visible _ t ht
    intro hall
    have := List.all_eq_true.mp hall b hb
    rw [hspace] at this
    cases this
  unfold deserialize
  rw [if_neg hblank, hparse]
  dsimp only
  rw [List.map_map, List.foldl_map]
  -- the columns are those of the dataset, under the keys of the dataset
  refine Finmap.ext_lookup fun key => ?_
  have hfold := lookup_foldl_insert (fun k => (ds.lookup k).getD []) (ds.keys.sort keyLE) ∅ key
  simp only [Function.comp_apply, strings_map]
  rw [hfold]
  have hmem : key ∈ ds.keys.sort keyLE ↔ key ∈ ds :=
    (Finset.mem_sort keyLE).trans Finmap.mem_keys
  by_cases hkey : key ∈ ds
  · obtain ⟨texts, hl⟩ := Finmap.mem_iff.mp hkey
    rw [if_pos (hmem.mpr hkey), hl, Option.getD_some]
  · rw [if_neg fun h => hkey (hmem.mp h), Finmap.lookup_empty, Finmap.lookup_eq_none.mpr hkey]

end JsonSerializer

open JsonSerializer

/-- **The codec round trip.** Every dataset that is valid UTF-8 is encoded, and decoded as it
was; and what is decoded from any text is encoded, and decoded as it was. -/
theorem codec_roundTrip {J : Json} (hJ : J.RoundTrips) :
    (∀ ds : Dataset, ds.IsUtf8 → (serialize J ds).map (deserialize J) = some ds) ∧
      ∀ t : Bytes, (serialize J (deserialize J t)).map (deserialize J) =
        some (deserialize J t) :=
  ⟨fun _ h => deserialize_serialize hJ h,
    fun t => deserialize_serialize hJ (isUtf8_deserialize J t)⟩

/-- The empty dataset, and one with columns of unequal lengths, come back. -/
theorem codec_roundTrip_arrays :
    (serialize .arrays ∅).map (deserialize .arrays) = some ∅ ∧
      (serialize .arrays (Finmap.insert (utf8 "id") [utf8 "1", utf8 "\"2\""]
          (Finmap.singleton (utf8 "назва") []))).map (deserialize .arrays) =
        some (Finmap.insert (utf8 "id") [utf8 "1", utf8 "\"2\""]
          (Finmap.singleton (utf8 "назва") [])) := by
  have h := (codec_roundTrip Json.arrays_roundTrips).1
  refine ⟨h ∅ Dataset.isUtf8_empty, h _ ?_⟩
  intro key texts hl
  by_cases hkey : key = utf8 "id"
  · subst hkey
    obtain rfl : [utf8 "1", utf8 "\"2\""] = texts := by simpa using hl
    exact ⟨.utf8 _, by simp⟩
  · rw [Finmap.lookup_insert_of_ne _ hkey] at hl
    exact Dataset.isUtf8_singleton.mpr ⟨.utf8 _, by simp⟩ key texts hl

end SageStore
