/-
LMCache.L2Adapters.DaxMigration — moving keys off a DAX device
(`dax_l2_adapter.py`: `hotplug_remove_device` and a shrinking
`hotplug_resize_device`, both in migrate mode).

A request runs under the device lock. It copies its keys one by one to the
other active devices and deletes them on the source when all are copied. A
failure puts the source back into its old state, but not the copies made.
Reads that end while a request waits for them are not followed.
-/
import LMCache.Lib.Dict

namespace LMCache.L2Adapters

open Lib List Dict

/-- `DaxDeviceState`; `removing` does not outlast a request. -/
inductive DaxDeviceState where
  | active | draining | migrating | resizing | closed | failed | removed
  deriving DecidableEq

/-- `_READABLE_STATES`. -/
def DaxDeviceState.readable : DaxDeviceState → Bool
  | .closed | .failed | .removed => false
  | _ => true

/-- What a request reads of `DaxCore`: the committed keys with slot and
payload, the locked keys, the slots under a read, and the slot allocator. -/
structure DaxCore (Key Payload : Type) [DecidableEq Key] where
  index : Dict Key (Nat × Payload)
  locked : List Key
  borrowed : List Nat
  freeSlots : List Nat
  nextSlot : Nat
  maxSlots : Nat

structure DaxDevice (Key Payload : Type) [DecidableEq Key] where
  state : DaxDeviceState
  core : DaxCore Key Payload

abbrev DaxAdapter (Key Payload : Type) [DecidableEq Key] (n : Nat) := Fin n → DaxDevice Key Payload

variable {Key Payload : Type} [DecidableEq Key] {n : Nat}

namespace DaxCore

variable (c : DaxCore Key Payload)

/-- `put_reserved_from_ptr` of a key that is not there; `none` is `NO_SPACE`. -/
def putReserved (key : Key) (p : Payload) : Option (DaxCore Key Payload) :=
  match c.freeSlots with
  | slot :: rest => some { c with index := c.index.set key (slot, p), freeSlots := rest }
  | [] =>
    if c.nextSlot < c.maxSlots then
      some { c with index := c.index.set key (c.nextSlot, p), nextSlot := c.nextSlot + 1 }
    else none

/-- `delete_many`, once the reads of the request are finalized. -/
def deleteMany (entries : List (Key × Nat × Payload)) : DaxCore Key Payload :=
  { c with
    index := (entries.map Prod.fst).foldl erase c.index
    locked := c.locked.filter fun key => decide (key ∉ entries.map Prod.fst)
    freeSlots := c.freeSlots ++ (entries.map (·.2.1)).filter fun slot => decide (slot ∉ c.borrowed) }

/-- `remap`, once the arena is open. -/
def remap (newMaxSlots : Nat) : DaxCore Key Payload :=
  { c with
    freeSlots := c.freeSlots.filter fun slot => decide (slot < newMaxSlots)
    nextSlot := min c.nextSlot newMaxSlots
    maxSlots := newMaxSlots }

def liveSlots : Nat := c.nextSlot - c.freeSlots.length

/-- The slots left. -/
def room : Nat := c.freeSlots.length + (c.maxSlots - c.nextSlot)

end DaxCore

namespace DaxAdapter

variable (a : DaxAdapter Key Payload n) (src : Fin n)

/-- `_writable_devices_by_usage_locked`. -/
def targets : List (Fin n) :=
  ((finRange n).filter fun i => decide ((a i).state = .active ∧ i ≠ src)).mergeSort fun i j =>
    decide ((a i).core.liveSlots * (a j).core.maxSlots ≤ (a j).core.liveSlots * (a i).core.maxSlots)

def withCore (i : Fin n) (core : DaxCore Key Payload) : DaxAdapter Key Payload n :=
  Function.update a i ⟨(a i).state, core⟩

/-- How `_copy_reservation_to_target_locked` ends. -/
inductive Copied (Key Payload : Type) [DecidableEq Key] (n : Nat) where
  | full
  | conflict
  | done (a : DaxAdapter Key Payload n)

/-- `_copy_reservation_to_target_locked`. -/
def copyTo (key : Key) (p : Payload) : List (Fin n) → Copied Key Payload n
  | [] => .full
  | t :: rest =>
    if key ∈ (a t).core.index then .conflict
    else
      match (a t).core.putReserved key p with
      | some core => .done (a.withCore t core)
      | none => copyTo key p rest

/-- The copying loops, with the copies made and the status of an exception:
`_shrink_device_locked` stops at a full device, `_migrate_keys_locked` does not. -/
def copyAll (stops : Bool) : List (Key × Nat × Payload) → DaxAdapter Key Payload n →
    DaxAdapter Key Payload n × Nat × Option Nat
  | [], a => (a, 0, none)
  | e :: rest, a =>
    match a.copyTo e.1 e.2.2 (a.targets src) with
    | .done a' => let r := copyAll stops rest a'; (r.1, r.2.1 + 1, r.2.2)
    | .full => if stops then (a, 0, some 507) else copyAll stops rest a
    | .conflict => (a, 0, some 409)

/-- `_assert_no_destination_duplicates_locked` raises. -/
def duplicates (entries : List (Key × Nat × Payload)) : Prop :=
  ∃ i, (a i).state = .active ∧ i ≠ src ∧ ∃ e ∈ entries, e.1 ∈ (a i).core.index

instance (entries : List (Key × Nat × Payload)) : Decidable (a.duplicates src entries) :=
  inferInstanceAs (Decidable (∃ _, _))

/-- The source is not found, or `_blocked_payload_locked` blocks the request. -/
def refused (force : Bool) : Option Nat :=
  if (a src).state.readable = false then some 404
  else if (a src).core.locked = [] ∧ (a src).core.borrowed = [] ∨ force = true then none
  else some 409

end DaxAdapter

/-- A request in migrate mode. `opens` says whether the smaller range, of a
positive number of slots, can be mapped. -/
inductive MigrateRequest (n : Nat) where
  | remove (src : Fin n) (force : Bool)
  | shrink (src : Fin n) (newMaxSlots : Nat) (force opens : Bool)

namespace MigrateRequest

def src : MigrateRequest n → Fin n
  | .remove src _ => src
  | .shrink src _ _ _ => src

def force : MigrateRequest n → Bool
  | .remove _ force => force
  | .shrink _ _ force _ => force

def stops : MigrateRequest n → Bool
  | .remove _ _ => false
  | .shrink _ _ _ _ => true

/-- The slots that are to be freed: all of them, or the high ones. -/
def frees : MigrateRequest n → Nat → Bool
  | .remove _ _, _ => true
  | .shrink _ newMaxSlots _ _, slot => decide (newMaxSlots ≤ slot)

/-- What has to leave the source. -/
def leaving (c : DaxCore Key Payload) (req : MigrateRequest n) : List (Key × Nat × Payload) :=
  c.index.entries.filter fun e => req.frees e.2.1

/-- The end of a request on the source, once all is copied: delete there, and
close or remap. -/
def settle (d : DaxDevice Key Payload) (req : MigrateRequest n) :
    Option Nat × DaxDevice Key Payload :=
  let core := d.core.deleteMany (req.leaving d.core)
  match req with
  | .remove _ _ => (none, ⟨.removed, { core with freeSlots := [], nextSlot := 0 }⟩)
  | .shrink _ newMaxSlots _ opens =>
    if ∃ slot ∈ core.borrowed, newMaxSlots ≤ slot then (some 409, { d with core := core })
    else if opens then (none, { d with core := core.remap newMaxSlots })
    else (some 400, { d with core := core })

/-- The request, with the status of its failure. -/
def run (req : MigrateRequest n) (a : DaxAdapter Key Payload n) :
    Option Nat × DaxAdapter Key Payload n :=
  let entries := req.leaving (a req.src).core
  match a.refused req.src req.force with
  | some status => (some status, a)
  | none =>
    if a.duplicates req.src entries then (some 409, a)
    else if entries ≠ [] ∧ a.targets req.src = [] then (some 507, a)
    else
      let r := a.copyAll req.src req.stops entries
      match r.2.2 with
      | some status => (some status, r.1)
      | none =>
        if r.2.1 ≠ entries.length then (some 507, r.1)
        else ((req.settle (r.1 req.src)).1,
          Function.update r.1 req.src (req.settle (r.1 req.src)).2)

end MigrateRequest

/-! ## Copies -/

variable [DecidableEq Payload]

/-- Whether the key can be read on the device, with this payload. -/
def DaxDevice.holds (d : DaxDevice Key Payload) (key : Key) (p : Payload) : Nat :=
  (d.state.readable && (d.core.index.get? key).any fun v => decide (v.2 = p)).toNat

namespace DaxAdapter

variable {a : DaxAdapter Key Payload n} {src : Fin n}

variable (a) in
/-- How many devices the key can be read on, with this payload. -/
def held (key : Key) (p : Payload) : Nat := ∑ i, (a i).holds key p

/-- The slots left on a device, if a request may copy to it. -/
def spare (src i : Fin n) (d : DaxDevice Key Payload) : Nat :=
  if d.state = .active ∧ i ≠ src then d.core.room else 0

variable (a src) in
def room : Nat := ∑ i, spare src i (a i)

section

omit [DecidableEq Payload]

/-- A sum over the devices when one of them changes. -/
lemma sum_update (F : Fin n → DaxDevice Key Payload → Nat) (t : Fin n)
    (d : DaxDevice Key Payload) :
    ∑ i, F i (Function.update a t d i) + F t (a t) = ∑ i, F i (a i) + F t d := by
  rw [← Finset.add_sum_erase _ _ (Finset.mem_univ t),
    ← Finset.add_sum_erase _ (fun i => F i (a i)) (Finset.mem_univ t), Function.update_self,
    Finset.sum_congr rfl fun i hi => by rw [Function.update_of_ne (Finset.ne_of_mem_erase hi)]]
  omega

/-- A put takes one of the slots left, if there is one. -/
lemma putReserved_cases (c : DaxCore Key Payload) (key : Key) (p : Payload) :
    (c.putReserved key p = none ∧ c.room = 0) ∨ ∃ slot c', c.putReserved key p = some c' ∧
      c'.index = c.index.set key (slot, p) ∧ c'.room + 1 = c.room := by
  unfold DaxCore.putReserved DaxCore.room
  cases hfree : c.freeSlots with
  | cons slot rest => exact .inr ⟨slot, _, rfl, rfl, by simp; omega⟩
  | nil =>
    by_cases hnext : c.nextSlot < c.maxSlots
    · exact .inr ⟨_, _, if_pos hnext, rfl, by simp; omega⟩
    · exact .inl ⟨if_neg hnext, by simp; omega⟩

/-- Copying a key that is on no target takes a slot of one, or all are full. -/
lemma copyTo_cases {key : Key} {p : Payload} {ts : List (Fin n)}
    (hfresh : ∀ t ∈ ts, key ∉ (a t).core.index) :
    (a.copyTo key p ts = .full ∧ ∀ t ∈ ts, (a t).core.room = 0) ∨
      ∃ t ∈ ts, ∃ slot core, core.index = (a t).core.index.set key (slot, p) ∧
      core.room + 1 = (a t).core.room ∧ a.copyTo key p ts = .done (a.withCore t core) := by
  induction ts with
  | nil => exact .inl ⟨rfl, by simp⟩
  | cons t ts ih =>
    obtain ⟨ht, hts⟩ := forall_mem_cons.mp hfresh
    rw [copyTo, if_neg ht]
    rcases putReserved_cases (a t).core key p with ⟨hput, hroom⟩ | ⟨slot, core, hput, hindex, hroom⟩
    · rw [hput]
      rcases ih hts with ⟨hfull, hrest⟩ | ⟨t', ht', hdone⟩
      · exact .inl ⟨hfull, by simpa using ⟨hroom, hrest⟩⟩
      · exact .inr ⟨t', mem_cons_of_mem _ ht', hdone⟩
    · rw [hput]
      exact .inr ⟨t, mem_cons_self, slot, core, hindex, hroom, rfl⟩

lemma mem_targets {t : Fin n} : t ∈ a.targets src ↔ (a t).state = .active ∧ t ≠ src := by
  simp [targets]

lemma room_eq_zero (h : ∀ t ∈ a.targets src, (a t).core.room = 0) : a.room src = 0 := by
  simpa [room, spare] using fun i hactive hne => h i (mem_targets.mpr ⟨hactive, hne⟩)

end

/-- Whether the key is listed with this payload. -/
def listed (key : Key) (p : Payload) (l : List (Key × Nat × Payload)) : Nat :=
  (l.any fun e => decide (e.1 = key ∧ e.2.2 = p)).toNat

lemma listed_cons {e : Key × Nat × Payload} {l : List (Key × Nat × Payload)}
    (he : e.1 ∉ l.map Prod.fst) (key : Key) (p : Payload) :
    listed key p (e :: l) = listed key p [e] + listed key p l := by
  simp only [listed, any_cons, any_nil]
  cases hfirst : decide (e.1 = key ∧ e.2.2 = p) with
  | false => simp
  | true =>
    have hrest : (l.any fun e => decide (e.1 = key ∧ e.2.2 = p)) = false := by
      simp only [any_eq_false, decide_eq_true_eq, not_and]
      intro e' he' hkey
      exact absurd (mem_map.mpr ⟨e', he', hkey.trans (of_decide_eq_true hfirst).1.symm⟩) he
    simp only [hrest, Bool.toNat_false, add_zero]

/-- One copy: a slot less, and the key is on one device more. -/
lemma copied_one {e : Key × Nat × Payload} {t : Fin n} {slot : Nat} {core : DaxCore Key Payload}
    (ht : t ∈ a.targets src) (hnew : e.1 ∉ (a t).core.index)
    (hindex : core.index = (a t).core.index.set e.1 (slot, e.2.2))
    (hroom : core.room + 1 = (a t).core.room) : (a.withCore t core).room src + 1 = a.room src ∧
      ∀ key p, (a.withCore t core).held key p = a.held key p + listed key p [e] := by
  obtain ⟨hactive, hne⟩ := mem_targets.mp ht
  constructor
  · have hsum := sum_update (a := a) (spare src) t ⟨(a t).state, core⟩
    have hbefore : spare src t (a t) = (a t).core.room := if_pos ⟨hactive, hne⟩
    have hafter : spare src t ⟨(a t).state, core⟩ = core.room := if_pos ⟨hactive, hne⟩
    unfold room withCore
    omega
  · intro key p
    have hsum := sum_update (a := a) (fun _ d => d.holds key p) t ⟨(a t).state, core⟩
    have hone : DaxDevice.holds ⟨(a t).state, core⟩ key p
        = (a t).holds key p + listed key p [e] := by
      by_cases hkey : e.1 = key
      · subst hkey
        have hnone := not_mem_iff_get?.mp hnew
        by_cases hp : e.2.2 = p <;>
          simp [DaxDevice.holds, listed, hindex, hnone, hactive, DaxDeviceState.readable]
      · rw [DaxDevice.holds, hindex, get?_set_ne _ _ (Ne.symm hkey)]
        simp [DaxDevice.holds, listed, hkey]
    unfold held withCore
    omega

/-- The loop copies as many keys as there is room for. -/
lemma copyAll_spec (stops : Bool) (l : List (Key × Nat × Payload))
    (hnodup : (l.map Prod.fst).Nodup)
    (hfresh : ∀ e ∈ l, ∀ i ∈ a.targets src, e.1 ∉ (a i).core.index) :
    (copyAll src stops l a).1 src = a src ∧
      (copyAll src stops l a).2.1 = min l.length (a.room src) ∧
      ((copyAll src stops l a).2.2 = none ∨ a.room src < l.length) ∧
      (a.room src = 0 → (copyAll src stops l a).1 = a) ∧
      ∀ key p, (copyAll src stops l a).1.held key p
      = a.held key p + listed key p (l.take (a.room src)) := by
  induction l generalizing a with
  | nil => simp [copyAll, listed]
  | cons e l ih =>
    obtain ⟨he, hnodup⟩ := nodup_cons.mp hnodup
    obtain ⟨hnew, hfresh⟩ := forall_mem_cons.mp hfresh
    rw [copyAll]
    rcases copyTo_cases hnew with ⟨hfull, hroom⟩ | ⟨t, ht, slot, core, hindex, hroom, hdone⟩
    · have hzero := room_eq_zero hroom
      obtain ⟨hsrc, hmoved, -, hsame, hheld⟩ := ih hnodup hfresh
      rw [hfull]
      cases stops <;> simp_all [listed]
    · obtain ⟨hslots, hadded⟩ := copied_one ht (hnew t ht) hindex hroom
      have hsame : ∀ i, (a.withCore t core i).state = (a i).state := by
        intro i
        by_cases hi : i = t <;> simp [withCore, hi]
      obtain ⟨hsrc, hmoved, hok, -, hheld⟩ := ih (a := a.withCore t core) hnodup (by
          intro e' he' i hi
          rw [mem_targets, hsame, ← mem_targets] at hi
          have hkeys : e'.1 ≠ e.1 := fun h => he (h ▸ mem_map_of_mem he')
          by_cases hit : i = t
          · subst hit
            simpa [withCore, hindex, Dict.mem_set, hkeys] using hfresh e' he' i hi
          · simpa [withCore, hit] using hfresh e' he' i hi)
      rw [hdone, ← hslots]
      refine ⟨?_, ?_, ?_, nofun, fun key p => ?_⟩
      · rw [hsrc, withCore, Function.update_of_ne (mem_targets.mp ht).2.symm]
      · simp [hmoved]
      · simpa using hok
      · have htake : e.1 ∉ (l.take ((a.withCore t core).room src)).map Prod.fst :=
          fun h => he ((take_sublist _ _).map _ |>.subset h)
        rw [take_succ_cons, hheld, hadded, listed_cons htake]
        omega

end DaxAdapter

namespace MigrateRequest

open DaxAdapter

variable {a : DaxAdapter Key Payload n} {req : MigrateRequest n}

omit [DecidableEq Payload] in
lemma mem_leaving {c : DaxCore Key Payload} {e : Key × Nat × Payload} :
    e ∈ req.leaving c ↔ c.index.get? e.1 = some e.2 ∧ req.frees e.2.1 := by
  rw [leaving, mem_filter, ← mem_entries]

/-- What was listed is gone from the source at the end, and nothing else. -/
lemma settle_holds (req : MigrateRequest n) {d : DaxDevice Key Payload}
    (hd : d.state.readable) (key : Key) (p : Payload) :
    (req.settle d).2.holds key p + listed key p (req.leaving d.core) = d.holds key p := by
  have hlisted : listed key p (req.leaving d.core)
      = ((d.core.index.get? key).any fun v => decide (v.2 = p) && req.frees v.1).toNat := by
    rw [listed]
    congr 1
    rw [Bool.eq_iff_iff]
    simp [mem_leaving, Option.any_eq_true]
  have hgone : key ∈ (req.leaving d.core).map Prod.fst ↔
      ((d.core.index.get? key).any fun v => req.frees v.1) := by
    simp [mem_leaving, Option.any_eq_true]
  rw [hlisted, DaxDevice.holds, DaxDevice.holds, hd]
  cases req with
  | remove src force => simp [settle, DaxDeviceState.readable, frees]
  | shrink src newMaxSlots force opens =>
    have hindex : ∀ d', ((shrink src newMaxSlots force opens).settle d).2 = d' →
        d'.state = d.state ∧ d'.core.index = (((shrink src newMaxSlots force opens).leaving
          d.core).map Prod.fst).foldl erase d.core.index := by
      rintro d' rfl
      simp only [settle]
      split
      · exact ⟨rfl, rfl⟩
      · split <;> exact ⟨rfl, rfl⟩
    obtain ⟨hstate, hindex⟩ := hindex _ rfl
    rw [hstate, hindex, get?_foldl_erase, hd]
    simp only [hgone]
    cases d.core.index.get? key with
    | none => simp
    | some v => cases hv : frees (shrink src newMaxSlots force opens) v.1 <;> simp [hv]

omit [DecidableEq Payload] in
lemma nodup_leaving (c : DaxCore Key Payload) : ((req.leaving c).map Prod.fst).Nodup :=
  c.index.nodup.sublist (filter_sublist.map _)

omit [DecidableEq Payload] in
lemma fresh_of_not_duplicates {l : List (Key × Nat × Payload)} (h : ¬ a.duplicates req.src l) :
    ∀ e ∈ l, ∀ i ∈ a.targets req.src, e.1 ∉ (a i).core.index := by
  intro e he i hi hin
  obtain ⟨hactive, hne⟩ := mem_targets.mp hi
  exact h ⟨i, hactive, hne, e, he, hin⟩

/-- With room for all its keys a request ends as the change of the source does. -/
lemma run_of_room (hrefused : a.refused req.src req.force = none)
    (hdup : ¬ a.duplicates req.src (req.leaving (a req.src).core))
    (hle : (req.leaving (a req.src).core).length ≤ a.room req.src) :
    (req.run a).1 = (req.settle (a req.src)).1 := by
  have htargets : ¬ (req.leaving (a req.src).core ≠ [] ∧ a.targets req.src = []) := by
    rintro ⟨hne, hnone⟩
    have hzero : a.room req.src = 0 := room_eq_zero (by simp [hnone])
    exact hne (length_eq_zero_iff.mp (by omega))
  obtain ⟨hsrc, hmoved, hstatus, -⟩ :=
    copyAll_spec req.stops _ (nodup_leaving _) (fresh_of_not_duplicates hdup)
  simp only [run, hrefused, if_neg hdup, if_neg htargets, hstatus.resolve_right (by omega)]
  rw [if_neg (by omega), hsrc]

variable (a) in
/-- The devices with other capacities. -/
def grown (maxSlots : Fin n → Nat) : DaxAdapter Key Payload n :=
  fun i => ⟨(a i).state, { (a i).core with maxSlots := maxSlots i }⟩

lemma held_run_iff (a : DaxAdapter Key Payload n) (req : MigrateRequest n) :
    (∀ key p, (req.run a).2.held key p = a.held key p) ↔
      a.refused req.src req.force ≠ none ∨ a.duplicates req.src (req.leaving (a req.src).core) ∨
      a.room req.src = 0 ∨ (req.leaving (a req.src).core).length ≤ a.room req.src := by
  simp only [run]
  generalize hentries : req.leaving (a req.src).core = entries
  cases hrefused : a.refused req.src req.force with
  | some status => simp
  | none =>
    by_cases hdup : a.duplicates req.src entries
    · simp [hdup]
    by_cases htargets : entries ≠ [] ∧ a.targets req.src = []
    · have hzero : a.room req.src = 0 := room_eq_zero (by simp [htargets])
      simp [hdup, htargets, hzero]
    rw [if_neg hdup, if_neg htargets]
    obtain ⟨hsrc, hmoved, hstatus, -, hheld⟩ := copyAll_spec req.stops entries
      (hentries ▸ nodup_leaving _) (fresh_of_not_duplicates hdup)
    generalize a.copyAll req.src req.stops entries = r at hsrc hmoved hstatus hheld ⊢
    have hreadable : (a req.src).state.readable := by
      cases h : (a req.src).state.readable with
      | true => rfl
      | false => simp [refused, h] at hrefused
    have hfailed : a.room req.src < entries.length →
        ((∀ key p, r.1.held key p = a.held key p) ↔ a.room req.src = 0) := by
      intro hlt
      constructor
      · intro hsame
        by_contra hpos
        obtain ⟨e, rest, rfl⟩ := exists_cons_of_length_pos (Nat.zero_lt_of_lt hlt)
        obtain ⟨m, hm⟩ := Nat.exists_eq_succ_of_ne_zero hpos
        have hfirst := hheld e.1 e.2.2
        simp [hsame, hm, listed] at hfirst
      · intro hzero key p
        simp [hheld, hzero, listed]
    cases hr : r.2.2 with
    | some status =>
      have hlt := hstatus.resolve_left (by simp [hr])
      simp [hfailed hlt, hdup, hlt]
    | none =>
      by_cases hall : r.2.1 ≠ entries.length
      · have hlt : a.room req.src < entries.length := by omega
        simp [hall, hfailed hlt, hdup, hlt]
      · have hle : entries.length ≤ a.room req.src := by omega
        simp only [hall, if_false, hle, or_true, iff_true]
        intro key p
        have hsum := sum_update (a := r.1) (fun _ d => d.holds key p) req.src
          (req.settle (a req.src)).2
        have hsettled := req.settle_holds hreadable key p
        have hcopied := hheld key p
        rw [hsrc] at hsum ⊢
        rw [take_of_length_le hle] at hcopied
        rw [hentries] at hsettled
        unfold held at hcopied ⊢
        omega

/-- A request leaves every key on as many readable devices as before, with its
payload, unless it copies some of its keys and has no room for the rest. Where
there is no room at all it fails and changes nothing, and with enough capacity
added it ends as the change of the source does. -/
theorem held_run_iff_roomy (a : DaxAdapter Key Payload n) (req : MigrateRequest n) :
    ((∀ key p, (req.run a).2.held key p = a.held key p) ↔
      a.refused req.src req.force ≠ none ∨ a.duplicates req.src (req.leaving (a req.src).core) ∨
      a.room req.src = 0 ∨ (req.leaving (a req.src).core).length ≤ a.room req.src) ∧
    (a.refused req.src req.force = none → ¬ a.duplicates req.src (req.leaving (a req.src).core) →
      a.room req.src = 0 → req.leaving (a req.src).core ≠ [] →
      (req.run a).1 ≠ none ∧ (req.run a).2 = a ∧ ∀ maxSlots,
      (req.leaving (a req.src).core).length ≤ (grown a maxSlots).room req.src →
      (req.run (grown a maxSlots)).1 = (req.settle (grown a maxSlots req.src)).1) := by
  refine ⟨held_run_iff a req, fun hrefused hdup hzero hne =>
    ⟨?_, ?_, fun maxSlots => run_of_room (a := grown a maxSlots) hrefused hdup⟩⟩
  all_goals
    obtain ⟨-, hmoved, -, hsame, -⟩ :=
      copyAll_spec req.stops _ (nodup_leaving _) (fresh_of_not_duplicates hdup)
    have hpos := length_pos_iff.mpr hne
    simp only [run, hrefused, if_neg hdup]
    split
    · simp
    split
    · simp [hsame hzero]
    · rw [if_pos (by omega)]
      simp [hsame hzero]

/-- Two keys are to leave the first device and the second has one slot left. -/
def crowded : DaxAdapter Nat Nat 2
  | 0 => ⟨.active, ⟨⟨[(1, 0, 10), (2, 1, 20)], by decide⟩, [], [], [], 2, 2⟩⟩
  | 1 => ⟨.active, ⟨∅, [], [], [], 0, 1⟩⟩

/-- Each key is on one device. The request fails, the first key is then on both
devices, and the same request is refused for that when the second device has
grown to four slots. -/
theorem crowded_remove_leaves_copy :
    let req : MigrateRequest 2 := .remove 0 false
    let after := (req.run crowded).2
    crowded.held 1 10 = 1 ∧ crowded.held 2 20 = 1 ∧
      (req.run crowded).1 = some 507 ∧ after.held 1 10 = 2 ∧
      (req.run (Function.update after 1 ⟨.active, (after 1).core.remap 4⟩)).1 = some 409 := by
  decide +kernel

end MigrateRequest

end LMCache.L2Adapters
