/-
LMCache.Lib.Run — runs of a step function, and the induction rules
every safety argument below uses.

`run step s es` is the state after the events `es`. `Along step P s es`
says `P` holds of every (state, event) pair the run passes through; it is
how "every step of the run meets a condition" is written, since the
condition may read the state the event finds.

`run_inv` is the invariant rule: what one admissible step preserves, a run
of admissible steps preserves. `good_iff_along` sharpens it for a condition
that is also necessary. `foldl_chain` is the same induction for a
loop whose body takes several small steps of some relation.
-/
import Mathlib.Logic.Relation

namespace LMCache.Lib

variable {σ ε : Type}

/-- The state after the events `es`. -/
def run (step : σ → ε → σ) (s : σ) (es : List ε) : σ := es.foldl step s

/-- `P` holds at every step of the run of `es` from `s`. -/
def Along (step : σ → ε → σ) (P : σ → ε → Prop) : σ → List ε → Prop
  | _, [] => True
  | s, e :: es => P s e ∧ Along step P (step s e) es

instance decidableAlong (step : σ → ε → σ) (P : σ → ε → Prop) [∀ s e, Decidable (P s e)] :
    (s : σ) → (es : List ε) → Decidable (Along step P s es)
  | _, [] => inferInstanceAs (Decidable True)
  | s, e :: es =>
    have := decidableAlong step P (step s e) es
    inferInstanceAs (Decidable (P s e ∧ Along step P (step s e) es))

section

variable (step : σ → ε → σ) (s : σ)

@[simp] lemma run_nil : run step s [] = s := rfl

@[simp] lemma run_cons (e : ε) (es : List ε) : run step s (e :: es) = run step (step s e) es := rfl

lemma run_append (es fs : List ε) : run step s (es ++ fs) = run step (run step s es) fs :=
  List.foldl_append

end

variable {step : σ → ε → σ} {P : σ → ε → Prop} {es : List ε}

lemma along_append {fs : List ε} : ∀ {s : σ}, Along step P s (es ++ fs) ↔
      Along step P s es ∧ Along step P (run step s es) fs := by
  induction es with
  | nil => intro s; simp [Along]
  | cons e es ih => intro s; simp only [List.cons_append, Along, run_cons, ih, and_assoc]

lemma along_of_forall (h : ∀ s e, P s e) : ∀ (es : List ε) (s : σ), Along step P s es
  | [], _ => trivial
  | e :: es, s => ⟨h s e, along_of_forall h es (step s e)⟩

/-- A condition holds along a run iff it holds wherever the run is cut. -/
lemma along_iff_forall : ∀ {s : σ}, Along step P s es ↔
      ∀ before e after, es = before ++ e :: after → P (run step s before) e := by
  induction es with
  | nil => simp [Along]
  | cons e es ih =>
    intro s
    simp only [Along, ih]
    constructor
    · rintro ⟨he, hes⟩ before d after heq
      cases before with
      | nil =>
        obtain ⟨rfl, -⟩ := List.cons.inj heq
        exact he
      | cons b before =>
        obtain ⟨rfl, hrest⟩ := List.cons.inj heq
        exact hes before d after hrest
    · intro h
      exact ⟨h [] e es rfl, fun before d after heq => h (e :: before) d after (by rw [heq]; rfl)⟩

lemma Along.and {s : σ} {Q : σ → ε → Prop} (hP : Along step P s es) (hQ : Along step Q s es) :
    Along step (fun s e => P s e ∧ Q s e) s es :=
  along_iff_forall.mpr fun before e after h =>
    ⟨along_iff_forall.mp hP before e after h, along_iff_forall.mp hQ before e after h⟩

variable {s : σ} (Inv : σ → Prop)

/-- Under an invariant, one condition on the steps of a run gives another. -/
lemma along_of_inv {Q : σ → ε → Prop} (hstep : ∀ s e, Inv s → P s e → Q s e ∧ Inv (step s e))
    (hs : Inv s) (ha : Along step P s es) : Along step Q s es := by
  induction es generalizing s with
  | nil => trivial
  | cons e es ih =>
    obtain ⟨hq, hinv⟩ := hstep s e hs ha.1
    exact ⟨hq, ih hinv ha.2⟩

/-- What every admissible step preserves, every admissible run preserves. -/
lemma run_inv (hstep : ∀ s e, Inv s → P s e → Inv (step s e)) (hs : Inv s)
    (ha : Along step P s es) : Inv (run step s es) := by
  induction es generalizing s with
  | nil => exact hs
  | cons e es ih => exact ih (hstep s e hs ha.1) ha.2

/-- What every step preserves, every run preserves. -/
lemma run_always (hstep : ∀ s e, Inv s → Inv (step s e)) (hs : Inv s) (es : List ε) :
    Inv (run step s es) := by
  induction es generalizing s with
  | nil => exact hs
  | cons e es ih => exact ih (hstep s e hs)

/-- When `Cond` is exactly what keeps the invariant: a run stays `Good` in
every state it passes through iff each of its steps meets `Cond`. -/
lemma good_iff_along {Ok Cond : σ → ε → Prop} {Good : σ → Prop} (hgood : ∀ s, Inv s → Good s)
    (hkeep : ∀ s e, Inv s → Ok s e → Cond s e → Inv (step s e))
    (hbreak : ∀ s e, Inv s → Ok s e → Good (step s e) → Cond s e) (hs : Inv s)
    (hok : Along step Ok s es) : (∀ n, Good (run step s (es.take n))) ↔ Along step Cond s es := by
  induction es generalizing s with
  | nil => simpa [Along] using hgood s hs
  | cons e es ih =>
    constructor
    · intro h
      have hcond : Cond s e := hbreak s e hs hok.1 (by simpa using h 1)
      refine ⟨hcond, (ih (hkeep s e hs hok.1 hcond) hok.2).mp fun n => ?_⟩
      simpa using h (n + 1)
    · rintro ⟨hcond, hrest⟩ n
      cases n with
      | zero => exact hgood s hs
      | succ n => simpa using (ih (hkeep s e hs hok.1 hcond) hok.2).mpr hrest n

/-- A loop whose body takes steps of `R` (seen through `π`) takes steps of
`R` as a whole. -/
lemma foldl_chain {α β γ : Type} {R : γ → γ → Prop} {f : α → β → α} (π : α → γ)
    {l : List β} (hbody : ∀ a, ∀ x ∈ l, Relation.ReflTransGen R (π a) (π (f a x))) (a : α) :
    Relation.ReflTransGen R (π a) (π (l.foldl f a)) := by
  induction l generalizing a with
  | nil => exact .refl
  | cons x l ih =>
    have hx := hbody a x (List.mem_cons_self)
    have hl := ih (fun a y hy => hbody a y (List.mem_cons_of_mem _ hy)) (f a x)
    exact hx.trans hl

/-- A loop over distinct elements, with an invariant that may speak of the
elements still to come. -/
lemma foldl_remaining {α β : Type} {f : α → β → α} (P : List β → α → Prop)
    (hturn : ∀ a x l, (x :: l).Nodup → P (x :: l) a → P l (f a x)) {l : List β} {a : α}
    (hl : l.Nodup) (ha : P l a) : P [] (l.foldl f a) := by
  induction l generalizing a with
  | nil => exact ha
  | cons x l ih => exact ih hl.tail (hturn a x l hl ha)

/-- What no turn of a loop changes, the loop does not change. -/
lemma foldl_frame {α β γ : Type} {f : α → β → α} (π : α → γ) (hturn : ∀ a x, π (f a x) = π a)
    (l : List β) (a : α) : π (l.foldl f a) = π a := by
  induction l generalizing a with
  | nil => rfl
  | cons x l ih => exact (ih (f a x)).trans (hturn a x)

/-- A computation in `Except` that succeeds does so in each part. -/
lemma bind_ok {α β γ : Type} {x : Except γ α} {f : α → Except γ β} {b : β}
    (h : x >>= f = .ok b) : ∃ a, x = .ok a ∧ f a = .ok b := by
  cases x with
  | error e => cases h
  | ok a => exact ⟨a, rfl, h⟩

/-- A loop in `Except` whose turns all succeed is the loop without. -/
lemma foldlM_ok {α β γ : Type} {f : α → β → Except γ α} {g : α → β → α} {l : List β}
    (hturn : ∀ a, ∀ x ∈ l, f a x = .ok (g a x)) (a : α) : l.foldlM f a = .ok (l.foldl g a) := by
  induction l generalizing a with
  | nil => rfl
  | cons x l ih =>
    rw [List.foldlM_cons, hturn a x (List.mem_cons_self)]
    exact ih (fun a y hy => hturn a y (List.mem_cons_of_mem _ hy)) (g a x)

lemma mapM_ok {α β γ : Type} {f : α → Except γ β} {g : α → β} {l : List α}
    (hturn : ∀ x ∈ l, f x = .ok (g x)) : l.mapM f = .ok (l.map g) := by
  induction l with
  | nil => rfl
  | cons x l ih =>
    rw [List.mapM_cons, hturn x (List.mem_cons_self),
      ih fun y hy => hturn y (List.mem_cons_of_mem _ hy)]
    rfl

end LMCache.Lib
