/-
LMCache.Lib.Dict — insertion-ordered dictionaries.

`Dict κ ν` is the Python `dict`: a finite map whose iteration order is the
order in which its keys were first inserted. Assigning to a present key
keeps the key's place, deleting and inserting again moves it to the end.
The `nodup` field carries "no key twice", so no lemma below has to ask for
it.

Everything a client needs is in three groups: the lookup equations
(`get?_set`, `get?_erase`), membership as lookup (`mem_iff_get?`), and the
value list up to permutation (`values_erase`, `values_set_mem`,
`values_set_new`), which is what counting and summing arguments use. A
dictionary of lists groups its elements (`push`, `pairs_push`).

`NestedDict κ τ ν` is a dictionary of non-empty dictionaries, the shape
`d.setdefault(k, {})[t] = v` with the inner dictionary dropped when it
becomes empty. Its equations are the same three groups, one level up.
-/
import Mathlib.Algebra.BigOperators.Fin

namespace LMCache.Lib

open List

/-- Entries in insertion order, no key twice. -/
structure Dict (κ ν : Type) where
  entries : List (κ × ν)
  nodup : (entries.map Prod.fst).Nodup

namespace Dict

variable {κ ν : Type}

def empty : Dict κ ν := ⟨[], by simp⟩

instance : EmptyCollection (Dict κ ν) := ⟨empty⟩
instance : Inhabited (Dict κ ν) := ⟨empty⟩

def keys (d : Dict κ ν) : List κ := d.entries.map Prod.fst

def values (d : Dict κ ν) : List ν := d.entries.map Prod.snd

instance : Membership κ (Dict κ ν) := ⟨fun d k => k ∈ d.keys⟩

variable [DecidableEq κ]

instance (d : Dict κ ν) (k : κ) : Decidable (k ∈ d) :=
  inferInstanceAs (Decidable (k ∈ d.keys))

section

variable (d : Dict κ ν) (k : κ)

def get? : Option ν := d.entries.lookup k

lemma map_fst_assign (v : ν) (l : List (κ × ν)) :
    (l.map (fun p => if p.1 = k then (k, v) else p)).map Prod.fst = l.map Prod.fst := by
  rw [map_map]
  apply map_congr_left
  intro p _
  by_cases h : p.1 = k <;> simp [h]

/-- `d[k] = v`: in place for a present key, at the end for a new one. -/
def set (v : ν) : Dict κ ν :=
  if h : k ∈ d then
    ⟨d.entries.map (fun p => if p.1 = k then (k, v) else p), by
      rw [map_fst_assign]; exact d.nodup⟩
  else
    ⟨d.entries ++ [(k, v)], by
      have hk : k ∉ d.entries.map Prod.fst := h
      rw [map_append, map_singleton]
      exact nodup_append.mpr ⟨d.nodup, by simp, by
        intro a ha b hb hab
        simp only [mem_singleton] at hb
        exact hk (by rw [← hb, ← hab]; exact ha)⟩⟩

/-- `del d[k]`; no effect on an absent key. -/
def erase : Dict κ ν :=
  ⟨d.entries.filter (fun p => p.1 ≠ k), d.nodup.sublist (filter_sublist.map _)⟩

end

/-- Replace every value, keeping the keys in place. -/
def mapValues {μ : Type} (d : Dict κ ν) (f : κ → ν → μ) : Dict κ μ :=
  ⟨d.entries.map (fun p => (p.1, f p.1 p.2)), by
    rw [map_map]
    exact d.nodup⟩

/-- `d.update(e)`. -/
def update (d e : Dict κ ν) : Dict κ ν := e.entries.foldl (fun d p => d.set p.1 p.2) d

/-! ## Lookup and membership -/

@[simp] lemma get?_empty (k : κ) : (∅ : Dict κ ν).get? k = none := rfl

variable {d : Dict κ ν} {k : κ} {v : ν}

lemma mem_entries : (k, v) ∈ d.entries ↔ d.get? k = some v := by
  obtain ⟨l, hl⟩ := d
  simp only [get?]
  induction l with
  | nil => simp
  | cons p l ih =>
    obtain ⟨k', v'⟩ := p
    simp only [map_cons, nodup_cons] at hl
    have ih := ih hl.2
    by_cases h : k = k'
    · subst h
      have hno : (k, v) ∉ l := fun hm => hl.1 (mem_map.mpr ⟨_, hm, rfl⟩)
      simp [hno, eq_comm]
    · have hb : (k == k') = false := by simpa using h
      simp [lookup_cons, hb, ih, h]

lemma get?_of_getLast? (h : d.entries.getLast? = some (k, v)) : d.get? k = some v :=
  mem_entries.mp (mem_of_getLast? h)

lemma mem_iff_get? : k ∈ d ↔ ∃ v, d.get? k = some v := by
  constructor
  · intro h
    obtain ⟨⟨k', v⟩, hm, rfl⟩ := mem_map.mp (show k ∈ d.entries.map Prod.fst from h)
    exact ⟨v, mem_entries.mp hm⟩
  · rintro ⟨v, hv⟩
    exact mem_map.mpr ⟨(k, v), mem_entries.mpr hv, rfl⟩

lemma not_mem_iff_get? : k ∉ d ↔ d.get? k = none := by
  rw [mem_iff_get?]
  cases h : d.get? k <;> simp

omit [DecidableEq κ] in
lemma mem_keys : k ∈ d.keys ↔ k ∈ d := Iff.rfl

omit [DecidableEq κ] in
lemma isEmpty_iff : d.entries.isEmpty ↔ ∀ k, k ∉ d := by
  rw [List.isEmpty_iff]
  constructor
  · intro h k hk
    obtain ⟨p, hp, -⟩ := List.mem_map.mp hk
    rw [h] at hp
    exact absurd hp not_mem_nil
  · intro h
    refine eq_nil_iff_forall_not_mem.mpr fun p hp => h p.1 ?_
    exact mem_map_of_mem hp

lemma get?_set (d : Dict κ ν) (k j : κ) (v : ν) :
    (d.set k v).get? j = if j = k then some v else d.get? j := by
  -- read both sides as membership in the entry list
  have key : ∀ w, (d.set k v).get? j = some w ↔ (if j = k then some v else d.get? j) = some w := by
    intro w
    rw [← mem_entries]
    unfold set
    split
    · rename_i hk
      obtain ⟨u, hu⟩ := mem_iff_get?.mp hk
      have hmem := mem_entries.mpr hu
      by_cases hj : j = k
      · subst hj
        simp only [mem_map, if_true, Option.some.injEq]
        constructor
        · rintro ⟨⟨a, b⟩, hab, he⟩
          by_cases ha : a = j <;> simp_all
        · rintro rfl
          exact ⟨(j, u), hmem, by simp⟩
      · simp only [mem_map, if_neg hj, ← mem_entries]
        constructor
        · rintro ⟨⟨a, b⟩, hab, he⟩
          by_cases ha : a = k
          · simp only [ha, if_true, Prod.mk.injEq] at he
            exact absurd he.1.symm hj
          · simp only [ha] at he
            rw [← he]; exact hab
        · intro hw
          exact ⟨(j, w), hw, by simp [hj]⟩
    · rename_i hk
      have hnone := not_mem_iff_get?.mp hk
      by_cases hj : j = k
      · subst hj
        have hno : (j, w) ∉ d.entries := by
          intro hm; rw [mem_entries, hnone] at hm; cases hm
        simp [hno, eq_comm]
      · simp [hj, mem_entries]
  apply Option.ext
  intro w
  exact key w

variable (d k v) in
@[simp] lemma get?_set_self : (d.set k v).get? k = some v := by
  simp [get?_set]

lemma get?_set_ne (d : Dict κ ν) {j : κ} (v : ν) (h : j ≠ k) : (d.set k v).get? j = d.get? j := by
  simp [get?_set, h]

lemma set_set (d : Dict κ ν) (k : κ) (v w : ν) : (d.set k v).set k w = d.set k w := by
  have hmem : k ∈ d.set k v := mem_iff_get?.mpr ⟨v, get?_set_self d k v⟩
  rw [set, dif_pos hmem]
  by_cases h : k ∈ d
  · simp only [set, dif_pos h, mk.injEq, map_map]
    apply map_congr_left
    intro p _
    by_cases hp : p.1 = k <;> simp [hp]
  · simp only [set, dif_neg h, mk.injEq, map_append]
    congr 1
    · refine (map_congr_left fun p hp => ?_).trans (map_id _)
      have hne : p.1 ≠ k := fun hpk => h (hpk ▸ mem_map_of_mem (f := Prod.fst) hp)
      simp [hne]
    · simp

lemma get?_erase (d : Dict κ ν) (k j : κ) :
    (d.erase k).get? j = if j = k then none else d.get? j := by
  apply Option.ext
  intro w
  rw [← mem_entries]
  by_cases hj : j = k
  · simp [erase, hj]
  · simp [erase, hj, mem_entries]

lemma get?_set_cases {j : κ} {u v : ν} (h : (d.set k v).get? j = some u) :
    (j = k ∧ u = v) ∨ (j ≠ k ∧ d.get? j = some u) := by
  rw [get?_set] at h
  split at h <;> simp_all

lemma get?_of_erase {j : κ} {u : ν} (h : (d.erase k).get? j = some u) :
    j ≠ k ∧ d.get? j = some u := by
  rw [get?_erase] at h
  split at h <;> simp_all

@[simp] lemma get?_erase_self (d : Dict κ ν) (k : κ) : (d.erase k).get? k = none := by
  simp [get?_erase]

lemma get?_erase_ne (d : Dict κ ν) {j : κ} (h : j ≠ k) : (d.erase k).get? j = d.get? j := by
  simp [get?_erase, h]

lemma get?_mapValues {μ : Type} (d : Dict κ ν) (f : κ → ν → μ) (k : κ) :
    (d.mapValues f).get? k = (d.get? k).map (f k) := by
  apply Option.ext
  intro w
  rw [← mem_entries]
  simp only [mapValues, mem_map, Prod.mk.injEq, Prod.exists, Option.map_eq_some_iff]
  constructor
  · rintro ⟨k', v, hm, rfl, rfl⟩
    exact ⟨v, mem_entries.mp hm, rfl⟩
  · rintro ⟨v, hv, rfl⟩
    exact ⟨k, v, mem_entries.mpr hv, rfl, rfl⟩

/-- A loop over the entries whose turns each change one key does to a key what
the turn of its entry does. -/
lemma foldl_entries {σ ω : Type} {step : σ → κ × ν → σ} (read : σ → κ → ω) (turn : κ → ν → ω → ω)
    (hstep : ∀ s p k, read (step s p) k = if k = p.1 then turn k p.2 (read s k) else read s k)
    (d : Dict κ ν) (s : σ) (k : κ) :
    read (d.entries.foldl step s) k = (d.get? k).elim (read s k) fun v => turn k v (read s k) := by
  obtain ⟨l, hl⟩ := d
  induction l generalizing s with
  | nil => rfl
  | cons p l ih =>
    obtain ⟨k', v⟩ := p
    rw [map_cons, nodup_cons] at hl
    rw [foldl_cons, ih _ hl.2, hstep]
    by_cases hk : k = k'
    · subst hk
      have hnew : k ∉ (⟨l, hl.2⟩ : Dict κ ν) := hl.1
      have hnone : l.lookup k = none := not_mem_iff_get?.mp hnew
      simp [get?, hnone]
    · have hbeq : (k == k') = false := by simpa using hk
      simp [get?, lookup_cons, hk, hbeq]

lemma get?_update (d e : Dict κ ν) (k : κ) : (d.update e).get? k = (e.get? k).or (d.get? k) := by
  rw [update, foldl_entries get? (fun _ v _ => some v) fun d p k => get?_set d p.1 k p.2]
  cases e.get? k <;> rfl

lemma sum_entries (d : Dict κ ν) (k : κ) (f : ν → Int) :
    (d.entries.map fun p => if k = p.1 then f p.2 else 0).sum = (d.get? k).elim 0 f := by
  obtain ⟨l, hl⟩ := d
  simp only [get?]
  induction l with
  | nil => rfl
  | cons p l ih =>
    obtain ⟨k', v⟩ := p
    rw [map_cons, nodup_cons] at hl
    rw [map_cons, sum_cons, ih hl.2]
    by_cases hk : k = k'
    · subst hk
      have hnew : k ∉ (⟨l, hl.2⟩ : Dict κ ν) := hl.1
      have hnone : l.lookup k = none := not_mem_iff_get?.mp hnew
      simp [hnone]
    · have hbeq : (k == k') = false := by simpa using hk
      simp [lookup_cons, hk, hbeq]

omit [DecidableEq κ] in
lemma ext_entries {d' : Dict κ ν} (h : d.entries = d'.entries) : d = d' := by
  cases d; cases d'; cases h; rfl

lemma exists_entries (h : d.get? k = some v) : ∃ l r, d.entries = l ++ (k, v) :: r :=
  append_of_mem (mem_entries.mpr h)

variable {l : List (κ × ν)}

omit [DecidableEq κ] in
lemma not_mem_of_entries {r : List (κ × ν)} (h : d.entries = l ++ (k, v) :: r) :
    k ∉ l.map Prod.fst ∧ k ∉ r.map Prod.fst := by
  have hnodup := d.nodup
  rw [h, map_append, nodup_append] at hnodup
  exact ⟨fun hk => hnodup.2.2 k hk k (by simp) rfl, (nodup_cons.mp hnodup.2.1).1⟩

lemma entries_set_of {r : List (κ × ν)} (h : d.entries = l ++ (k, v) :: r) (w : ν) :
    (d.set k w).entries = l ++ (k, w) :: r := by
  obtain ⟨hl, hr⟩ := not_mem_of_entries h
  have hother : ∀ s : List (κ × ν), k ∉ s.map Prod.fst →
      s.map (fun p => if p.1 = k then (k, w) else p) = s := by
    intro s hs
    refine (map_congr_left fun p hp => ?_).trans (map_id s)
    exact if_neg fun hk : p.1 = k => hs (hk ▸ mem_map_of_mem hp)
  have hmem : k ∈ d := show k ∈ d.entries.map Prod.fst by simp [h]
  simp [set, hmem, h, hother l hl, hother r hr]

lemma set_of_get? (h : d.get? k = some v) : d.set k v = d := by
  obtain ⟨l, r, heq⟩ := exists_entries h
  exact ext_entries ((entries_set_of heq v).trans heq.symm)

lemma entries_erase_of {r : List (κ × ν)} (h : d.entries = l ++ (k, v) :: r) :
    (d.erase k).entries = l ++ r := by
  obtain ⟨hl, hr⟩ := not_mem_of_entries h
  have hother : ∀ s : List (κ × ν), k ∉ s.map Prod.fst → s.filter (fun p => p.1 ≠ k) = s := by
    intro s hs
    rw [filter_eq_self]
    intro p hp
    simpa using fun hk : p.1 = k => hs (hk ▸ mem_map_of_mem hp)
  show d.entries.filter (fun p => p.1 ≠ k) = l ++ r
  rw [h, filter_append, filter_cons_of_neg (by simp), hother l hl, hother r hr]

lemma entries_set_new (h : k ∉ d) (v : ν) : (d.set k v).entries = d.entries ++ [(k, v)] := by
  simp [set, h]

lemma entries_foldl_erase (ks : List κ) (d : Dict κ ν) :
    (ks.foldl erase d).entries = d.entries.filter (fun p => p.1 ∉ ks) := by
  induction ks generalizing d with
  | nil => simp
  | cons k ks ih =>
    rw [foldl_cons, ih, erase, filter_filter]
    apply filter_congr
    intro p _
    simp only [mem_cons, not_or, Bool.decide_and, Bool.and_comm]

lemma mem_foldl_erase {ks : List κ} : k ∈ ks.foldl erase d ↔ k ∈ d ∧ k ∉ ks := by
  show k ∈ (ks.foldl erase d).entries.map Prod.fst ↔ k ∈ d.entries.map Prod.fst ∧ k ∉ ks
  simp only [entries_foldl_erase, mem_map, mem_filter, decide_eq_true_eq]
  constructor
  · rintro ⟨p, ⟨hp, hk⟩, rfl⟩
    exact ⟨⟨p, hp, rfl⟩, hk⟩
  · rintro ⟨⟨p, hp, rfl⟩, hk⟩
    exact ⟨p, ⟨hp, hk⟩, rfl⟩

lemma get?_foldl_erase (ks : List κ) (d : Dict κ ν) (k : κ) :
    (ks.foldl erase d).get? k = if k ∈ ks then none else d.get? k := by
  induction ks generalizing d with
  | nil => simp
  | cons j ks ih =>
    rw [foldl_cons, ih, get?_erase]
    by_cases hk : k = j <;> simp [hk]

lemma foldl_erase_keys (d : Dict κ ν) : (d.entries.map Prod.fst).foldl erase d = ∅ := by
  apply ext_entries
  refine (entries_foldl_erase _ d).trans (filter_eq_nil_iff.mpr fun p hp => ?_)
  simpa using ⟨p.2, hp⟩

lemma mem_set {j : κ} : j ∈ d.set k v ↔ j = k ∨ j ∈ d := by
  simp only [mem_iff_get?, get?_set]
  by_cases hj : j = k <;> simp [hj]

lemma mem_erase {j : κ} : j ∈ d.erase k ↔ j ≠ k ∧ j ∈ d := by
  simp only [mem_iff_get?, get?_erase]
  by_cases hj : j = k <;> simp

lemma get?_foldl_set (h : (l.foldl (fun d p => d.set p.1 p.2) d).get? k = some v) :
    (k, v) ∈ l ∨ d.get? k = some v := by
  induction l generalizing d with
  | nil => exact .inr h
  | cons p l ih =>
    rcases ih h with hmem | hset
    · exact .inl (mem_cons_of_mem _ hmem)
    · obtain ⟨hk, rfl⟩ | ⟨-, hset⟩ := get?_set_cases hset
      · exact .inl (hk ▸ mem_cons_self)
      · exact .inr hset

lemma mem_foldl_set : k ∈ l.foldl (fun d p => d.set p.1 p.2) d ↔ k ∈ l.map Prod.fst ∨ k ∈ d := by
  induction l generalizing d with
  | nil => simp
  | cons p l ih =>
    rw [foldl_cons, ih, mem_set, map_cons, mem_cons]
    exact or_left_comm.trans or_assoc.symm

lemma entries_foldl_set_new (hl : (l.map Prod.fst).Nodup) (hnew : ∀ p ∈ l, p.1 ∉ d) :
    (l.foldl (fun d p => d.set p.1 p.2) d).entries = d.entries ++ l := by
  induction l generalizing d with
  | nil => simp
  | cons p l ih =>
    rw [map_cons, nodup_cons] at hl
    have hlater : ∀ q ∈ l, q.1 ∉ d.set p.1 p.2 := by
      intro q hq hmem
      rcases mem_set.mp hmem with heq | hmem
      · exact hl.1 (heq ▸ mem_map_of_mem hq)
      · exact hnew q (mem_cons_of_mem _ hq) hmem
    rw [foldl_cons, ih hl.2 hlater, entries_set_new (hnew p mem_cons_self)]
    simp

@[simp] lemma not_mem_empty (k : κ) : k ∉ (∅ : Dict κ ν) := by
  rw [not_mem_iff_get?]; rfl

lemma mem_values : v ∈ d.values ↔ ∃ k, d.get? k = some v := by
  simp only [values, mem_map, Prod.exists, exists_eq_right]
  exact exists_congr fun _ => mem_entries

lemma empty_update (d : Dict κ ν) : (∅ : Dict κ ν).update d = d :=
  ext_entries (entries_foldl_set_new d.nodup fun p _ => not_mem_empty p.1)

/-! ## The value list -/

omit [DecidableEq κ] in
@[simp] lemma values_empty : (∅ : Dict κ ν).values = [] := rfl

lemma entries_erase (h : d.get? k = some v) : d.entries.Perm ((k, v) :: (d.erase k).entries) := by
  obtain ⟨l, r, heq⟩ := exists_entries h
  rw [heq, entries_erase_of heq]
  exact perm_middle

lemma keys_erase (h : k ∈ d) : d.keys.Perm (k :: (d.erase k).keys) := by
  obtain ⟨v, hv⟩ := mem_iff_get?.mp h
  simpa [keys] using (entries_erase hv).map Prod.fst

lemma keys_set_new (v : ν) (h : k ∉ d) : (d.set k v).keys = d.keys ++ [k] := by
  simp [keys, set, h]

lemma values_erase (h : d.get? k = some v) : d.values.Perm (v :: (d.erase k).values) := by
  simpa [values] using (entries_erase h).map Prod.snd

lemma key_eq_of_nodup {β : Type} {f : ν → β} (hd : (d.values.map f).Nodup) {j : κ} {w : ν}
    (hk : d.get? k = some v) (hj : d.get? j = some w) (hf : f v = f w) : k = j := by
  by_contra hne
  have hperm := (values_erase hk).map f
  have hw : w ∈ (d.erase k).values := by
    refine mem_values.mpr ⟨j, ?_⟩
    rw [get?_erase_ne d fun h => hne h.symm]
    exact hj
  refine (nodup_cons.mp (hperm.nodup_iff.mp hd)).1 ?_
  rw [hf]
  exact mem_map_of_mem hw

lemma nodup_map_values {β : Type} {f : ν → β}
    (h : ∀ k j v w, d.get? k = some v → d.get? j = some w → f v = f w → k = j) :
    (d.values.map f).Nodup := by
  rw [values, map_map]
  refine List.Nodup.map_on ?_ (List.Nodup.of_map _ d.nodup)
  rintro ⟨k, v⟩ hk ⟨j, w⟩ hj hf
  have hkv := mem_entries.mp hk
  have hjw := mem_entries.mp hj
  obtain rfl := h k j v w hkv hjw hf
  obtain rfl := Option.mem_unique hkv hjw
  rfl

section

variable (d k v)

lemma erase_set : ((d.set k v).erase k).entries = (d.erase k).entries := by
  simp only [erase, set]
  split
  · dsimp only
    induction d.entries with
    | nil => rfl
    | cons p l ih => by_cases h : p.1 = k <;> simp [h] at ih ⊢ <;> exact ih
  · simp

lemma entries_set : (d.set k v).entries.Perm ((k, v) :: (d.erase k).entries) := by
  have h := entries_erase (get?_set_self d k v)
  rwa [erase_set] at h

lemma values_set : (d.set k v).values.Perm (v :: (d.erase k).values) := by
  simpa [values] using (d.entries_set k v).map Prod.snd

end

lemma erase_of_not_mem (h : d.get? k = none) : d.erase k = d := by
  obtain ⟨l, hl⟩ := d
  simp only [erase, mk.injEq, filter_eq_self]
  intro p hp
  simp only [decide_eq_true_eq]
  intro he
  exact not_mem_iff_get?.mpr h (mem_map.mpr ⟨p, hp, he⟩)

lemma values_set_new (v : ν) (h : d.get? k = none) : (d.set k v).values.Perm (v :: d.values) := by
  have := values_set d k v
  rwa [erase_of_not_mem h] at this

/-! ### Grouping -/

/-- The elements that `f` finds in the values, each with its key. -/
def flat {α : Type} (d : Dict κ ν) (f : ν → List α) : List (κ × α) :=
  d.entries.flatMap fun p => (f p.2).map (Prod.mk p.1)

variable {α : Type}

lemma flat_at (d : Dict κ ν) (f : ν → List α) (k : κ) :
    (d.flat f).Perm (((d.get? k).elim [] f).map (Prod.mk k) ++ (d.erase k).flat f) := by
  cases h : d.get? k with
  | none => simp [erase_of_not_mem h]
  | some v => exact (entries_erase h).flatMap_right _

lemma flat_set (d : Dict κ ν) (f : ν → List α) (k : κ) (v : ν) :
    ((d.set k v).flat f).Perm ((f v).map (Prod.mk k) ++ (d.erase k).flat f) :=
  (d.entries_set k v).flatMap_right _

lemma mem_flat {f : ν → List α} {x : α} : (k, x) ∈ d.flat f ↔ ∃ v, d.get? k = some v ∧ x ∈ f v := by
  simp only [flat, mem_flatMap, mem_map, Prod.exists, Prod.mk.injEq]
  constructor
  · rintro ⟨j, v, hv, y, hy, rfl, rfl⟩
    exact ⟨v, mem_entries.mp hv, hy⟩
  · rintro ⟨v, hv, hx⟩
    exact ⟨k, v, mem_entries.mpr hv, x, hx, rfl, rfl⟩

lemma count_flat [DecidableEq α] (d : Dict κ ν) (f : ν → List α) (k : κ) (x : α) :
    (d.flat f).count (k, x) = ((d.get? k).elim [] f).count x := by
  have hrest : (k, x) ∉ (d.erase k).flat f := by simp [mem_flat]
  have hinj : Function.Injective (Prod.mk k : α → κ × α) := fun _ _ h => (Prod.mk.inj h).2
  rw [(d.flat_at f k).count_eq, count_append, count_eq_zero_of_not_mem hrest,
    count_map_of_injective _ _ hinj, add_zero]

lemma flat_filter [DecidableEq α] {d' : Dict κ ν} {f : ν → List α} (q : α → Bool)
    (h : ∀ k, (d'.get? k).elim [] f = ((d.get? k).elim [] f).filter q) :
    (d'.flat f).Perm ((d.flat f).filter fun p => q p.2) := by
  rw [perm_iff_count]
  rintro ⟨k, x⟩
  rw [count_flat, h k]
  cases hq : q x with
  | true =>
    rw [count_filter hq, count_filter (p := fun p : κ × α => q p.2) hq, count_flat]
  | false =>
    rw [count_eq_zero_of_not_mem, count_eq_zero_of_not_mem] <;> simp [hq]

/-- `d.setdefault(k, []).append(x)`. -/
def push (d : Dict κ (List ν)) (k : κ) (x : ν) : Dict κ (List ν) :=
  d.set k ((d.get? k).getD [] ++ [x])

/-- The elements of all lists, each with its key. -/
def pairs (d : Dict κ (List ν)) : List (κ × ν) :=
  d.entries.flatMap fun p => p.2.map (Prod.mk p.1)

omit [DecidableEq κ] in
@[simp] lemma pairs_empty : (∅ : Dict κ (List ν)).pairs = [] := rfl

lemma pairs_push (d : Dict κ (List ν)) (k : κ) (x : ν) :
    (d.push k x).pairs.Perm ((k, x) :: d.pairs) := by
  have hnew := d.flat_set id k ((d.get? k).getD [] ++ [x])
  have hold := d.flat_at id k
  have hlist : (d.get? k).elim [] id = (d.get? k).getD [] := by cases d.get? k <;> rfl
  rw [hlist] at hold
  rw [id, map_append, append_assoc] at hnew
  exact hnew.trans (perm_middle.trans (hold.symm.cons _))

end Dict

/-! ## Dictionaries of dictionaries -/

/-- A dictionary of non-empty dictionaries. The `inner_ne` field is what
makes `k in d` mean "some inner key is filed under `k`". -/
structure NestedDict (κ τ ν : Type) [DecidableEq κ] where
  outer : Dict κ (Dict τ ν)
  inner_ne : ∀ k d, outer.get? k = some d → d.entries ≠ []

namespace NestedDict

variable {κ τ ν : Type} [DecidableEq κ]

def empty : NestedDict κ τ ν := ⟨∅, by simp⟩

instance : EmptyCollection (NestedDict κ τ ν) := ⟨empty⟩
instance : Inhabited (NestedDict κ τ ν) := ⟨empty⟩

instance : Membership κ (NestedDict κ τ ν) := ⟨fun n k => k ∈ n.outer⟩

instance (n : NestedDict κ τ ν) (k : κ) : Decidable (k ∈ n) :=
  inferInstanceAs (Decidable (k ∈ n.outer))

section

variable (n : NestedDict κ τ ν)

def keys : List κ := n.outer.keys

def values : List ν := n.outer.values.flatMap Dict.values

/-- The inner dictionary of `k`, empty when there is none. -/
def inner (k : κ) : Dict τ ν := (n.outer.get? k).getD ∅

end

variable [DecidableEq τ]

section

variable (n : NestedDict κ τ ν) (k j : κ) (t : τ)

def get? : Option ν := (n.inner k).get? t

/-- `d.setdefault(k, {})[t] = v`. -/
def put (v : ν) : NestedDict κ τ ν :=
  ⟨n.outer.set k ((n.inner k).set t v), by
    intro j d hd
    obtain ⟨-, rfl⟩ | ⟨-, hd⟩ := Dict.get?_set_cases hd
    · have hmem := Dict.mem_entries.mpr (Dict.get?_set_self (n.inner k) t v)
      exact ne_nil_of_mem hmem
    · exact n.inner_ne j d hd⟩

/-- `d[k].pop(t)`, dropping `d[k]` when it becomes empty. -/
def pop : NestedDict κ τ ν :=
  if h : ((n.inner k).erase t).entries = [] then
    ⟨n.outer.erase k, by
      intro j d hd
      replace hd := (Dict.get?_of_erase hd).2
      exact n.inner_ne j d hd⟩
  else
    ⟨n.outer.set k ((n.inner k).erase t), by
      intro j d hd
      rw [Dict.get?_set] at hd
      split at hd
      · cases hd; exact h
      · exact n.inner_ne j d hd⟩

omit [DecidableEq τ] in
@[simp] lemma values_empty : (∅ : NestedDict κ τ ν).values = [] := rfl

lemma inner_put (v : ν) :
    (n.put k t v).inner j = if j = k then (n.inner k).set t v else n.inner j := by
  simp only [inner, put, Dict.get?_set]
  split <;> rfl

lemma get?_put (u : τ) (v : ν) :
    (n.put k t v).get? j u = if j = k ∧ u = t then some v else n.get? j u := by
  simp only [get?, inner_put]
  by_cases hj : j = k
  · subst hj; simp [Dict.get?_set]
  · simp [hj]

lemma get?_pop (u : τ) : (n.pop k t).get? j u = if j = k ∧ u = t then none else n.get? j u := by
  simp only [get?, pop]
  split
  · rename_i hnil
    simp only [inner, Dict.get?_erase]
    by_cases hj : j = k
    · subst hj
      simp only [if_true, true_and]
      -- every other inner key was absent already
      split
      · rfl
      · rename_i hu
        have h := Dict.get?_erase_ne ((n.outer.get? j).getD ∅) hu
        rw [← h]
        have : ((n.inner j).erase t).get? u = none := by rw [Dict.get?, hnil]; rfl
        exact this.symm
    · simp [hj]
  · simp only [inner, Dict.get?_set]
    by_cases hj : j = k
    · subst hj; simp [Dict.get?_erase]
    · simp [hj]

end

variable {n : NestedDict κ τ ν} {k : κ}

lemma mem_iff_get? : k ∈ n ↔ ∃ t v, n.get? k t = some v := by
  constructor
  · intro h
    obtain ⟨d, hd⟩ := Dict.mem_iff_get?.mp (show k ∈ n.outer from h)
    obtain ⟨p, hp⟩ := exists_mem_of_ne_nil _ (n.inner_ne k d hd)
    exact ⟨p.1, p.2, by simpa [get?, inner, hd] using Dict.mem_entries.mp hp⟩
  · rintro ⟨t, v, h⟩
    apply Dict.mem_iff_get?.mpr
    cases hd : n.outer.get? k with
    | none => simp [get?, inner, hd] at h
    | some d => exact ⟨d, rfl⟩

lemma not_mem_iff_get? : k ∉ n ↔ ∀ t, n.get? k t = none := by
  rw [mem_iff_get?]
  simp only [not_exists, Option.eq_none_iff_forall_not_mem, Option.mem_def]

variable {t : τ}

lemma mem_put {j : κ} {v : ν} : j ∈ n.put k t v ↔ j = k ∨ j ∈ n := by
  exact Dict.mem_set

lemma mem_values {v : ν} : v ∈ n.values ↔ ∃ k t, n.get? k t = some v := by
  simp only [values, mem_flatMap, Dict.mem_values]
  constructor
  · rintro ⟨d, ⟨k, hk⟩, t, ht⟩
    exact ⟨k, t, by simpa [get?, inner, hk] using ht⟩
  · rintro ⟨k, t, h⟩
    cases hd : n.outer.get? k with
    | none => simp [get?, inner, hd] at h
    | some d => exact ⟨d, ⟨k, hd⟩, t, by simpa [get?, inner, hd] using h⟩

omit [DecidableEq τ] in
lemma values_split (n : NestedDict κ τ ν) (k : κ) :
    n.values.Perm ((n.inner k).values ++ (n.outer.erase k).values.flatMap Dict.values) := by
  cases hd : n.outer.get? k with
  | none => simp [values, inner, hd, Dict.erase_of_not_mem hd]
  | some d =>
    have h := (Dict.values_erase hd).flatMap_right Dict.values
    simpa [values, inner, hd] using h

lemma values_pop {v : ν} (h : n.get? k t = some v) : n.values.Perm (v :: (n.pop k t).values) := by
  have hin := Dict.values_erase h
  refine ((n.values_split k).trans (hin.append_right _)).trans ?_
  simp only [pop]
  split
  · rename_i hnil
    have : ((n.inner k).erase t).values = [] := by rw [Dict.values, hnil]; rfl
    simp [values, this]
  · have hset := (Dict.values_set n.outer k ((n.inner k).erase t)).flatMap_right Dict.values
    exact (hset.symm).cons v

variable (n k t) in
lemma values_put (v : ν) : (n.put k t v).values.Perm
      (v :: (((n.inner k).erase t).values ++ (n.outer.erase k).values.flatMap Dict.values)) := by
  have hset := (Dict.values_set n.outer k ((n.inner k).set t v)).flatMap_right Dict.values
  exact hset.trans ((Dict.values_set (n.inner k) t v).append_right _)

variable (v : ν)

lemma values_put_new (h : n.get? k t = none) : (n.put k t v).values.Perm (v :: n.values) := by
  have h1 := values_put n k t v
  rw [Dict.erase_of_not_mem (show (n.inner k).get? t = none from h)] at h1
  exact h1.trans ((n.values_split k).symm.cons v)

lemma values_put_old {w : ν} (h : n.get? k t = some w) :
    (w :: (n.put k t v).values).Perm (v :: n.values) := by
  have hin := Dict.values_erase h
  have h1 := (values_put n k t v).cons w
  have h2 := ((n.values_split k).trans (hin.append_right _)).cons v
  exact h1.trans ((Perm.swap _ _ _).trans h2.symm)

end NestedDict

end LMCache.Lib
