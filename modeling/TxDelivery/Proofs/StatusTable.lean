import Mathlib.Data.List.Nodup
import TxDelivery.Service.State

/-!
# Reading the status table

What a key has after something was done to the table (`TxDelivery.StatusTable.get_set`,
`TxDelivery.StatusTable.get_restore`), and what a table is like that nothing but this was done to
(`TxDelivery.StatusTable.Sound`): a key which is not found is not in the table, and no key is in it
twice. **A key that gets back the status it had leaves no trace in such a table**
(`TxDelivery.StatusTable.Sound.restore_set`).

A table is a list of keys with their statuses. Nothing about reading it depends on their order, and
what is proved with it elsewhere uses the laws of reading: what was set is what is read, and every
other key has what it had. As everything is read through one look-up, they come down to what a
look-up finds after entries were changed at their places or one was added at the end.

These laws do not say that two tables are the same. A table that answers alike may have its entries
in another order, some of them twice, and keys that are stored as not found beside those that are
not stored. What has to be excluded for that is the invariant, in two halves: that a key is not
found is not stored (`TxDelivery.StatusTable.Proper`), and every key is there once. Setting a status
keeps both if it is one of the others, and so does giving back whichever
(`TxDelivery.StatusTable.Sound.restore`).

With this a key that is set and given back is either one that was there, whose entry is changed and
changed back at its place, or one that was not, whose entry is added at the end and taken away. It
is the first for which no key must be there twice, and the second for which a new key must not be
there at all.
-/

namespace TxDelivery

namespace StatusTable

variable {κ : Type} [DecidableEq κ]

theorem lookup_cons (k : κ) (v : TxStatus) (entries : List (κ × TxStatus)) (key : κ) :
    ((k, v) :: entries).lookup key = if key = k then some v else entries.lookup key := by
  by_cases h : key = k
  · simp [h]
  · have hne : (key == k) = false := by simp [h]
    simp only [List.lookup_cons, hne, h, if_false]

/-- Looking up a key after the entries of another, or of the same, were changed. -/
theorem lookup_map (entries : List (κ × TxStatus)) (key key' : κ) (status : TxStatus) :
    (entries.map fun e => if e.1 = key then (key, status) else e).lookup key' =
      if key' = key then (entries.lookup key').map fun _ => status else entries.lookup key' := by
  induction entries with
  | nil => simp
  | cons e entries ih =>
    obtain ⟨k, v⟩ := e
    by_cases hk : k = key
    · subst hk
      simp only [List.map_cons, if_true, lookup_cons, ih]
      split <;> rfl
    · simp only [List.map_cons, hk, if_false, lookup_cons, ih]
      by_cases hkey : key' = k
      · simp [hkey, hk]
      · simp [hkey]

theorem lookup_isSome_iff (entries : List (κ × TxStatus)) (key : κ) :
    (entries.any fun e => e.1 = key) = (entries.lookup key).isSome := by
  induction entries with
  | nil => rfl
  | cons e entries ih =>
    obtain ⟨k, v⟩ := e
    rw [List.any_cons, ih, lookup_cons]
    by_cases hk : key = k
    · simp [hk]
    · simp [hk, Ne.symm hk]

/-- **What a key has after a status was set.** -/
theorem get_set (t : StatusTable κ) (key key' : κ) (status : TxStatus) :
    (t.set key status).get key' = if key' = key then status else t.get key' := by
  unfold set
  split
  case isTrue hany =>
    rw [lookup_isSome_iff, Option.isSome_iff_exists] at hany
    obtain ⟨old, hold⟩ := hany
    simp only [get, lookup_map]
    by_cases hkey : key' = key
    · subst hkey
      simp [hold]
    · simp [hkey]
  case isFalse hany =>
    rw [lookup_isSome_iff, Option.not_isSome_iff_eq_none] at hany
    simp only [get, List.lookup_append]
    by_cases hkey : key' = key
    · subst hkey
      simp [hany]
    · simp [hkey, lookup_cons]

/-- What a key has after a key was forgotten. -/
theorem get_erase (t : StatusTable κ) (key key' : κ) :
    (t.erase key).get key' = if key' = key then .notFound else t.get key' := by
  have hlookup (entries : List (κ × TxStatus)) :
      (entries.filter fun e => e.1 ≠ key).lookup key' =
        if key' = key then none else entries.lookup key' := by
    induction entries with
    | nil => simp
    | cons e entries ih =>
      obtain ⟨k, v⟩ := e
      by_cases hk : k = key
      · subst hk
        rw [List.filter_cons_of_neg (by simp), ih, lookup_cons]
        split <;> rfl
      · rw [List.filter_cons_of_pos (by simpa using hk), lookup_cons, lookup_cons, ih]
        by_cases hkey : key' = k
        · simp [hkey, hk]
        · simp [hkey]
  simp only [get, erase, hlookup]
  split <;> rfl

/-- **What a key has after a key got its previous status back.** -/
theorem get_restore (t : StatusTable κ) (key key' : κ) (previous : TxStatus) :
    (t.restore key previous).get key' = if key' = key then previous else t.get key' := by
  unfold restore
  split
  case isTrue hnone => rw [get_erase, hnone]
  case isFalse => rw [get_set]

/-! ### What is stored -/

/-- **That a key is not found is never stored.** -/
def Proper (t : StatusTable κ) : Prop := ∀ e ∈ t.entries, e.2 ≠ .notFound

variable {t : StatusTable κ} {key : κ} {status : TxStatus}

theorem Proper.set (ht : t.Proper) (hs : status ≠ .notFound) : (t.set key status).Proper := by
  unfold StatusTable.set
  split
  · intro e he
    obtain ⟨e', he', rfl⟩ := List.mem_map.mp he
    split
    · exact hs
    · exact ht e' he'
  · intro e he
    rcases List.mem_append.mp he with he | he
    · exact ht e he
    · obtain rfl := List.mem_singleton.mp he
      exact hs

theorem Proper.restore (ht : t.Proper) : (t.restore key status).Proper := by
  unfold StatusTable.restore
  split
  case isTrue => exact fun e he => ht e (List.mem_filter.mp he).1
  case isFalse hs => exact ht.set hs

/-- The keys something is stored of, in their order. -/
def keys (t : StatusTable κ) : List κ := t.entries.map Prod.fst

/-- A key is in the table if an entry has it. -/
theorem any_eq_true_iff : (t.entries.any fun e => e.1 = key) = true ↔ key ∈ t.keys := by
  simp [keys]

/-- Setting a status adds its key at the end, unless it is there. -/
theorem keys_set : (t.set key status).keys = if key ∈ t.keys then t.keys else t.keys ++ [key] := by
  by_cases hkey : key ∈ t.keys
  · have hsame : Prod.fst ∘ (fun e : κ × TxStatus => if e.1 = key then (key, status) else e) =
        Prod.fst := by
      funext e
      by_cases he : e.1 = key <;> simp [he]
    rw [StatusTable.set, if_pos (any_eq_true_iff.mpr hkey), if_pos hkey]
    simp only [keys, List.map_map, hsame]
  · rw [StatusTable.set, if_neg (mt any_eq_true_iff.mp hkey), if_neg hkey]
    simp [keys]

/-- **A table that only had statuses set and taken back**: each of its keys is in it once, and has
been found. -/
structure Sound (t : StatusTable κ) : Prop where
  /-- That a key is not found is not stored. -/
  proper : t.Proper
  /-- No key is there twice. -/
  nodup : t.keys.Nodup

omit [DecidableEq κ] in
/-- Nothing is wrong as long as nothing is stored. -/
theorem sound_empty : (⟨[]⟩ : StatusTable κ).Sound :=
  ⟨fun _ he => absurd he List.not_mem_nil, List.nodup_nil⟩

theorem Sound.set (ht : t.Sound) (hs : status ≠ .notFound) : (t.set key status).Sound := by
  refine ⟨ht.proper.set hs, ?_⟩
  rw [keys_set]
  split
  case isTrue => exact ht.nodup
  case isFalse hkey =>
    refine List.nodup_append.mpr ⟨ht.nodup, List.nodup_singleton key, fun k hk k' hk' => ?_⟩
    rintro rfl
    exact hkey (List.mem_singleton.mp hk' ▸ hk)

theorem Sound.restore (ht : t.Sound) : (t.restore key status).Sound := by
  by_cases hs : status = .notFound
  · refine ⟨ht.proper.restore, ?_⟩
    rw [StatusTable.restore, if_pos hs]
    exact ht.nodup.sublist (List.filter_sublist.map Prod.fst)
  · rw [StatusTable.restore, if_neg hs]
    exact ht.set hs

/-- What is stored of a key is what is read. -/
theorem Sound.get_eq (ht : t.Sound) {e : κ × TxStatus} (he : e ∈ t.entries) : t.get e.1 = e.2 := by
  obtain ⟨entries⟩ := t
  have hnodup : (entries.map Prod.fst).Nodup := ht.nodup
  have hlookup : entries.lookup e.1 = some e.2 := by
    clear ht
    induction entries with
    | nil => exact absurd he List.not_mem_nil
    | cons first entries ih =>
      obtain ⟨hfirst, hrest⟩ := List.nodup_cons.mp hnodup
      rw [lookup_cons]
      rcases List.mem_cons.mp he with rfl | he
      · rw [if_pos rfl]
      · rw [if_neg, ih he hrest]
        intro hsame
        exact hfirst (hsame ▸ List.mem_map_of_mem he)
  rw [get, hlookup, Option.getD_some]

/-- A key nothing is stored of is not found, and no other. -/
theorem Sound.get_eq_notFound_iff (ht : t.Sound) : t.get key = .notFound ↔ key ∉ t.keys := by
  constructor
  · intro hget hkey
    obtain ⟨e, he, rfl⟩ := List.mem_map.mp hkey
    exact ht.proper e he ((ht.get_eq he).symm.trans hget)
  · intro hkey
    have hnone : ¬ (t.entries.lookup key).isSome = true := by
      rw [← lookup_isSome_iff]
      exact mt any_eq_true_iff.mp hkey
    rw [get, Option.not_isSome_iff_eq_none.mp hnone, Option.getD_none]

/-- **Giving a key back the status it had undoes what was set**, and leaves the very same table. -/
theorem Sound.restore_set (ht : t.Sound) : (t.set key status).restore key (t.get key) = t := by
  by_cases hkey : key ∈ t.keys
  · -- The key is there, and its entry is overwritten twice.
    have hkey' : key ∈ (t.set key status).keys := by rwa [keys_set, if_pos hkey]
    rw [StatusTable.restore, if_neg (mt ht.get_eq_notFound_iff.mp (not_not.mpr hkey)),
      StatusTable.set, if_pos (any_eq_true_iff.mpr hkey'), StatusTable.set,
      if_pos (any_eq_true_iff.mpr hkey)]
    refine congrArg StatusTable.mk ?_
    rw [List.map_map]
    refine (List.map_congr_left fun e he => ?_).trans (List.map_id _)
    by_cases hsame : e.1 = key
    · have hget := ht.get_eq he
      simp [← hsame, hget]
    · simp [hsame]
  · -- The key is not there, and its entry is added and taken away.
    rw [StatusTable.restore, if_pos (ht.get_eq_notFound_iff.mpr hkey), StatusTable.set,
      if_neg (mt any_eq_true_iff.mp hkey)]
    refine congrArg StatusTable.mk ?_
    rw [List.filter_append, List.filter_eq_self.mpr]
    · simp
    · intro e he
      have hne : e.1 ≠ key := fun hsame => hkey (hsame ▸ List.mem_map_of_mem he)
      simpa using hne

end StatusTable

end TxDelivery
