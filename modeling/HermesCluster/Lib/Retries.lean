import Mathlib.Data.List.Basic
/-!
# Retried requests

Some of the requests that reach a machine are attempts of one and the same. An attempt that
changes the machine leaves it where a further one changes nothing, as long as what others do
in between does not undo that. So the machine ends where the requests of the others lead,
with at most one of the attempts among them.
-/

universe u v

namespace Retries

variable {σ : Type u} {ε : Type v}

/-- The machine after some requests. -/
def runs (step : ε → σ → σ) (es : List ε) (s : σ) : σ :=
  es.foldl (fun s e => step e s) s

@[simp] theorem runs_nil (step : ε → σ → σ) (s : σ) : runs step [] s = s := rfl

@[simp] theorem runs_cons (step : ε → σ → σ) (e : ε) (es : List ε) (s : σ) :
    runs step (e :: es) s = runs step es (step e s) := rfl

/-- An attempt takes effect or changes nothing, and it changes nothing where one has. -/
structure Settles (step : ε → σ → σ) (Done : σ → Prop) (e : ε) (s : σ) : Prop where
  again : Done s → step e s = s
  done : step e s = s ∨ Done (step e s)

/-- An attempt that changes nothing. -/
theorem Settles.of_same {step : ε → σ → σ} {Done : σ → Prop} {e : ε} {s : σ}
    (h : step e s = s) : Settles step Done e s :=
  ⟨fun _ => h, .inl h⟩

/-- Along the requests, each attempt settles, and no other request undoes it. -/
def Undisturbed (step : ε → σ → σ) (attempt : ε → Bool) (Done : σ → Prop) : List ε → σ → Prop
  | [], _ => True
  | e :: es, s =>
      (if attempt e then Settles step Done e s else (Done s → Done (step e s))) ∧
        Undisturbed step attempt Done es (step e s)

variable {step : ε → σ → σ} {attempt : ε → Bool} {Done : σ → Prop} {es : List ε} {s : σ}

/-- What the requests come to with at most one of the attempts: the requests of the others
are all there, in their order. -/
structure Effective (step : ε → σ → σ) (attempt : ε → Bool) (es once : List ε) (s : σ) : Prop where
  sublist : once.Sublist es
  others : once.filter (fun e => !attempt e) = es.filter (fun e => !attempt e)
  single : (once.filter attempt).length ≤ 1
  same : runs step once s = runs step es s

/-- Nothing but the first attempt that changes the machine has an effect. -/
theorem exists_effective (h : Undisturbed step attempt Done es s) :
    ∃ once, Effective step attempt es once s ∧ (Done s → once.filter attempt = []) ∧
      (Done s ∨ once.filter attempt ≠ [] → Done (runs step es s)) := by
  induction es generalizing s with
  | nil =>
      refine ⟨[], ⟨List.Sublist.refl _, rfl, Nat.zero_le _, rfl⟩, fun _ => rfl, ?_⟩
      exact fun hdone => hdone.resolve_right (fun hne => hne rfl)
  | cons e es ih =>
      obtain ⟨hfirst, hrest⟩ := h
      obtain ⟨once, honce, hnone, hdone⟩ := ih hrest
      by_cases hattempt : attempt e = true
      · rw [if_pos hattempt] at hfirst
        by_cases hsame : step e s = s
        · rw [hsame] at honce hnone hdone
          refine ⟨once, ⟨honce.sublist.cons e, ?_, honce.single, ?_⟩, hnone, ?_⟩
          · rw [honce.others, List.filter_cons_of_neg (by simp [hattempt])]
          · rw [honce.same, runs_cons, hsame]
          · rw [runs_cons, hsame]
            exact hdone
        · -- this one has changed the machine, so that no later one does
          have hafter : Done (step e s) := hfirst.done.resolve_left hsame
          have hbefore : ¬Done s := fun hdone => hsame (hfirst.again hdone)
          have hlater := hnone hafter
          refine ⟨e :: once, ⟨honce.sublist.cons_cons e, ?_, ?_, honce.same⟩,
            fun h => absurd h hbefore, fun _ => hdone (.inl hafter)⟩
          · rw [List.filter_cons_of_neg (by simp [hattempt]), honce.others,
              List.filter_cons_of_neg (by simp [hattempt])]
          · rw [List.filter_cons_of_pos hattempt, hlater]
            exact Nat.le_refl 1
      · rw [if_neg hattempt] at hfirst
        have hfilter : (e :: once).filter attempt = once.filter attempt :=
          List.filter_cons_of_neg hattempt
        refine ⟨e :: once, ⟨honce.sublist.cons_cons e, ?_, ?_, honce.same⟩, ?_, ?_⟩
        · rw [List.filter_cons_of_pos (by simp [hattempt]), honce.others,
            List.filter_cons_of_pos (by simp [hattempt])]
        · rw [hfilter]
          exact honce.single
        · rw [hfilter]
          exact fun h => hnone (hfirst h)
        · rw [hfilter]
          exact fun h => hdone (h.imp_left hfirst)

end Retries
