import HermesCluster.Lib.Program
/-!
# History variables

A step that also keeps a history of what has been done. No program reads the
history, so a run that keeps it is the run that does not.
-/

namespace Program

universe u v w

section History

variable {Op : Type u} {Res : Op → Type} {ε α : Type} {σ : Type v} {η : Type w}
  {Call : Type w}

/-- The step, with a history to which `note` adds. -/
def noting (step : (op : Op) → σ → Res op × σ) (note : σ → Op → σ → η → η) (op : Op)
    (s : σ × η) : Res op × (σ × η) :=
  ((step op s.1).1, (step op s.1).2, note s.1 op (step op s.1).2 s.2)

variable {step : (op : Op) → σ → Res op × σ} {note : σ → Op → σ → η → η}

theorem run_noting (p : Program Op Res ε α) (s : σ × η) :
    (p.run (noting step note) s).1 = (p.run step s.1).1 ∧
      (p.run (noting step note) s).2.1 = (p.run step s.1).2 := by
  induction p generalizing s with
  | pure a => exact ⟨rfl, rfl⟩
  | raise e => exact ⟨rfl, rfl⟩
  | call op next ih => exact ih _ _

/-- A fact of the operations alone. -/
theorem along_noting {P : σ → Op → σ → Prop} {p : Program Op Res ε α} {s : σ × η} :
    p.Along (noting step note) (fun s op s' => P s.1 op s'.1) s ↔ p.Along step P s.1 := by
  induction p generalizing s with
  | pure a => exact Iff.rfl
  | raise e => exact Iff.rfl
  | call op next ih => exact and_congr_right fun _ => ih _

/-- A fact of the operations, beside what is written down of them. -/
theorem along_noting_noted {P : σ → Op → σ → Prop} {p : Program Op Res ε α} {s : σ × η}
    (h : p.Along step P s.1) :
    p.Along (noting step note) (fun s op s' => P s.1 op s'.1 ∧ s'.2 = note s.1 op s'.1 s.2) s := by
  induction p generalizing s with
  | pure a => trivial
  | raise e => trivial
  | call op next ih => exact ⟨⟨h.1, rfl⟩, ih _ h.2⟩

/-- A condition on calls that does not look at the history. -/
theorem callsMeet_noting {enter : Call → σ → σ} {prog : Call → Program Op Res ε α}
    {cond : Call → σ → Prop} {cs : List Call} {s : σ × η} :
    CallsMeet (noting step note) (fun c s => (enter c s.1, s.2)) prog (fun c s => cond c s.1) cs s ↔
      CallsMeet step enter prog cond cs s.1 := by
  induction cs generalizing s with
  | nil => exact Iff.rfl
  | cons c cs ih =>
      refine and_congr_right fun _ => ih.trans ?_
      rw [(run_noting (prog c) (enter c s.1, s.2)).2]

/-- The same of calls between which nothing happens. -/
theorem callsMeet_noting_calls {prog : Call → Program Op Res ε α} {cond : Call → σ → Prop}
    {cs : List Call} {s : σ × η} :
    CallsMeet (noting step note) (fun _ s => s) prog (fun c s => cond c s.1) cs s ↔
      CallsMeet step (fun _ s => s) prog cond cs s.1 := by
  induction cs generalizing s with
  | nil => exact Iff.rfl
  | cons c cs ih =>
      refine and_congr_right fun _ => ih.trans ?_
      rw [(run_noting (prog c) s).2]

end History

end Program
