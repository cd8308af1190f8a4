import HermesCluster.Lib.Interleave
/-!
# Programs that are started while others run

A pool to which programs are added: each input is a turn of one of them, or something
else, which may change the state and start programs. What a program performs, one turn
at a time, is a path through it, whatever the others do between its turns. So what is
known of every path of a program holds of it in every interleaving.
-/

universe u v w x

namespace Program

variable {Op : Type u} {Res : Op → Type} {ε α : Type}

/-! ## Paths -/

/-- An operation that was performed, with the reply to it. -/
abbrev Event (Res : Op → Type) : Type u := (op : Op) × Res op

/-- Performing the operations noted, with the replies noted, leaves `q` of `p`. -/
inductive Path : Program Op Res ε α → List (Event Res) → Program Op Res ε α → Prop
  | nil (p : Program Op Res ε α) : Path p [] p
  | cons {op : Op} {next : Res op → Program Op Res ε α} {r : Res op} {es : List (Event Res)}
      {q : Program Op Res ε α} (h : Path (next r) es q) : Path (.call op next) (⟨op, r⟩ :: es) q

variable {p q : Program Op Res ε α} {es : List (Event Res)}

theorem Path.concat {op : Op} {next : Res op → Program Op Res ε α}
    (h : Path p es (.call op next)) (r : Res op) : Path p (es ++ [⟨op, r⟩]) (next r) := by
  generalize hq : Program.call op next = q at h
  induction h with
  | nil p =>
      subst hq
      exact .cons (.nil _)
  | cons _ ih => exact .cons (ih hq)

theorem path_nil_iff : Path p [] q ↔ q = p := by
  constructor
  · intro h
    cases h
    rfl
  · intro h
    rw [h]
    exact .nil p

@[simp] theorem path_pure_iff {a : α} :
    Path (Program.pure a : Program Op Res ε α) es q ↔ es = [] ∧ q = .pure a := by
  constructor
  · intro h
    cases h
    simp
  · intro h
    rw [h.1, h.2]
    exact .nil _

@[simp] theorem path_raise_iff {e : ε} :
    Path (Program.raise e : Program Op Res ε α) es q ↔ es = [] ∧ q = .raise e := by
  constructor
  · intro h
    cases h
    simp
  · intro h
    rw [h.1, h.2]
    exact .nil _

/-- A path of a program that begins with an operation. -/
theorem path_call_cases {op : Op} {next : Res op → Program Op Res ε α}
    (h : Path (.call op next) es q) :
    (es = [] ∧ q = .call op next) ∨ ∃ r rest, es = ⟨op, r⟩ :: rest ∧ Path (next r) rest q := by
  cases h with
  | nil => simp
  | cons h => exact .inr ⟨_, _, rfl, h⟩

/-- What a program can ask for, it asks for along every path, and after it. -/
theorem Path.only {S : Op → Prop} (h : Path p es q) (hp : p.Only S) :
    (∀ e ∈ es, S e.1) ∧ q.Only S := by
  induction h with
  | nil p => exact ⟨by simp, hp⟩
  | cons _ ih =>
      obtain ⟨hrest, hq⟩ := ih (hp.2 _)
      exact ⟨List.forall_mem_cons.mpr ⟨hp.1, hrest⟩, hq⟩

/-- Nothing is left to do. -/
def Ended : Program Op Res ε α → Prop
  | .pure _ => True
  | .raise _ => True
  | .call _ _ => False

/-! ## A pool that grows -/

variable {σ : Type v} {E : Type w} {X : Type x} {J β : Type}

/-- A turn of a program, or something else. -/
inductive Occasion (E : Type w) (X : Type x) where
  | turn (t : Turn E)
  | other (x : X)

/-- The operation performed in a turn, if any; or the answer, and the jobs begun. -/
inductive Outcome {Op : Type u} (Res : Op → Type) (J β : Type) where
  | performed (event : Option (Event Res))
  | answered (b : β) (started : List J)

/-- What follows from something else: an answer, jobs to begin, and a state. It may look
at how far the programs have come. -/
abbrev Handler (Op : Type u) (Res : Op → Type) (ε α J β : Type) (σ : Type v) (X : Type x) :=
  X → Pool Op Res ε α × σ → (β × List J) × σ

/-- The machine of turns and other occasions; the program of a job joins the pool. -/
def crew (step : E → (op : Op) → σ → Res op × σ) (prog : J → Program Op Res ε α)
    (handle : Handler Op Res ε α J β σ X) :
    Machine (Pool Op Res ε α × σ) (Occasion E X) (Outcome Res J β)
  | .other x, s =>
      (.answered (handle x s).1.1 (handle x s).1.2,
        s.1 ++ (handle x s).1.2.map prog, (handle x s).2)
  | .turn t, s =>
      match s.1[t.position]? with
      | some (.call op next) =>
          (.performed (some ⟨op, (step t.env op s.2).1⟩),
            s.1.set t.position (next (step t.env op s.2).1), (step t.env op s.2).2)
      | _ => (.performed none, s)

abbrev CrewRun (E : Type w) (X : Type x) {Op : Type u} (Res : Op → Type) (J β : Type) :=
  List (Occasion E X × Outcome Res J β)

/-- The jobs that an occasion began. -/
def startedBy : Occasion E X × Outcome Res J β → List J
  | (_, .answered _ started) => started
  | (_, .performed _) => []

/-- The jobs that were begun, in order. -/
def startedIn (run : CrewRun E X Res J β) : List J :=
  run.flatMap startedBy

/-- What the program at a position performed, if that was a turn of it. -/
def eventOf (i : Nat) : Occasion E X × Outcome Res J β → Option (Event Res)
  | (.turn t, .performed event) => if t.position = i then event else none
  | _ => none

/-- What the program at a position has performed. -/
def performedBy (i : Nat) (run : CrewRun E X Res J β) : List (Event Res) :=
  run.filterMap (eventOf i)

/-- What was performed, by any of the programs. -/
def eventsIn (run : CrewRun E X Res J β) : List (Event Res) :=
  run.filterMap fun
    | (.turn _, .performed event) => event
    | _ => none

theorem startedIn_concat (run : CrewRun E X Res J β) (entry : Occasion E X × Outcome Res J β) :
    startedIn (run ++ [entry]) = startedIn run ++ startedBy entry := by
  simp [startedIn]

theorem performedBy_concat (i : Nat) (run : CrewRun E X Res J β)
    (entry : Occasion E X × Outcome Res J β) :
    performedBy i (run ++ [entry]) = performedBy i run ++ (eventOf i entry).toList := by
  simp only [performedBy, List.filterMap_append, List.filterMap_cons, List.filterMap_nil]
  cases eventOf i entry with
  | none => rfl
  | some event => rfl

/-- Every program in the pool has come there by a path through the one of its job. -/
structure OnPath (prog : J → Program Op Res ε α) (run : CrewRun E X Res J β)
    (pool : Pool Op Res ε α) : Prop where
  length : pool.length = (startedIn run).length
  path : ∀ i j q, (startedIn run)[i]? = some j → pool[i]? = some q →
    Path (prog j) (performedBy i run) q
  unstarted : ∀ i, (startedIn run).length ≤ i → performedBy i run = []

theorem onPath_nil (prog : J → Program Op Res ε α) :
    OnPath prog ([] : CrewRun E X Res J β) [] :=
  ⟨rfl, fun i j q hj _ => (by cases hj), fun _ _ => rfl⟩

section Step

variable {prog : J → Program Op Res ε α} {run : CrewRun E X Res J β} {pool : Pool Op Res ε α}

theorem OnPath.other (h : OnPath prog run pool) (x : X) (b : β) (started : List J) :
    OnPath prog (run ++ [(.other x, .answered b started)]) (pool ++ started.map prog) where
  length := by
    simp [startedIn_concat, startedBy, h.length]
  path i j q hj hq := by
    have hlength := h.length
    rw [startedIn_concat] at hj
    simp only [performedBy_concat, eventOf, Option.toList_none, List.append_nil]
    by_cases hi : i < pool.length
    · rw [List.getElem?_append_left (by omega)] at hj
      rw [List.getElem?_append_left hi] at hq
      exact h.path i j q hj hq
    · rw [List.getElem?_append_right (by omega)] at hj hq
      simp only [startedBy] at hj
      rw [hlength, List.getElem?_map, hj] at hq
      rw [h.unstarted i (by omega), path_nil_iff]
      exact (Option.some.inj hq).symm
  unstarted i hi := by
    rw [startedIn_concat, List.length_append] at hi
    simp only [performedBy_concat, eventOf, Option.toList_none, List.append_nil]
    exact h.unstarted i (by omega)

theorem OnPath.turn (h : OnPath prog run pool) (t : Turn E) {op : Op}
    {next : Res op → Program Op Res ε α} (hturn : pool[t.position]? = some (.call op next))
    (r : Res op) :
    OnPath prog (run ++ [(.turn t, .performed (some ⟨op, r⟩))])
      (pool.set t.position (next r)) where
  length := by
    simp [startedIn_concat, startedBy, h.length]
  path i j q hj hq := by
    simp only [startedIn_concat, startedBy, List.append_nil] at hj
    rw [performedBy_concat]
    by_cases hi : t.position = i
    · subst hi
      have hlt : t.position < pool.length := (List.getElem?_eq_some_iff.mp hturn).1
      rw [List.getElem?_set_self hlt] at hq
      have hsofar := h.path t.position j _ hj hturn
      simpa [eventOf, ← Option.some.inj hq] using hsofar.concat r
    · rw [List.getElem?_set_ne hi] at hq
      simpa [eventOf, hi] using h.path i j q hj hq
  unstarted i hi := by
    simp only [startedIn_concat, startedBy, List.append_nil] at hi
    have hlt : t.position < pool.length := (List.getElem?_eq_some_iff.mp hturn).1
    have hne : t.position ≠ i := by
      have hlength := h.length
      omega
    rw [performedBy_concat, h.unstarted i hi]
    simp [eventOf, hne]

theorem OnPath.idle (h : OnPath prog run pool) (t : Turn E) :
    OnPath prog (run ++ [(.turn t, .performed none)]) pool where
  length := by
    simp [startedIn_concat, startedBy, h.length]
  path i j q hj hq := by
    simp only [startedIn_concat, startedBy, List.append_nil] at hj
    simpa [performedBy_concat, eventOf] using h.path i j q hj hq
  unstarted i hi := by
    simp only [startedIn_concat, startedBy, List.append_nil] at hi
    simpa [performedBy_concat, eventOf] using h.unstarted i hi

end Step

variable {step : E → (op : Op) → σ → Res op × σ} {prog : J → Program Op Res ε α}
  {handle : Handler Op Res ε α J β σ X}

theorem crew_call {t : Turn E} {st : Pool Op Res ε α × σ} {op : Op}
    {next : Res op → Program Op Res ε α} (h : st.1[t.position]? = some (.call op next)) :
    crew step prog handle (.turn t) st =
      (.performed (some ⟨op, (step t.env op st.2).1⟩),
        st.1.set t.position (next (step t.env op st.2).1), (step t.env op st.2).2) := by
  unfold crew
  dsimp only
  rw [h]

theorem crew_idle {t : Turn E} {st : Pool Op Res ε α × σ}
    (h : ∀ op next, st.1[t.position]? ≠ some (.call op next)) :
    crew step prog handle (.turn t) st = (.performed none, st) := by
  unfold crew
  dsimp only
  split
  · rename_i op next hcall
    exact absurd hcall (h op next)
  · rfl

/-- A turn begins no job. -/
theorem startedBy_turn (t : Turn E) (st : Pool Op Res ε α × σ) :
    startedBy ((.turn t : Occasion E X), (crew step prog handle (.turn t) st).1) = [] := by
  by_cases hcall : ∃ op next, st.1[t.position]? = some (.call op next)
  · obtain ⟨op, next, hcall⟩ := hcall
    rw [crew_call hcall]
    rfl
  · rw [crew_idle (by simpa using hcall)]
    rfl

/-- The rule for an invariant of a run and what it has come to: other occasions, turns,
and turns in which nothing is left to do. -/
theorem tracks_of_crew {I : CrewRun E X Res J β → Pool Op Res ε α × σ → Prop} {s : σ}
    (hbegin : I [] ([], s))
    (hother : ∀ past pool s x, I past (pool, s) →
      I (past ++ [(.other x, .answered (handle x (pool, s)).1.1 (handle x (pool, s)).1.2)])
        (pool ++ (handle x (pool, s)).1.2.map prog, (handle x (pool, s)).2))
    (hturn : ∀ past pool s (t : Turn E) op next, I past (pool, s) →
      pool[t.position]? = some (.call op next) →
        I (past ++ [(.turn t, .performed (some ⟨op, (step t.env op s).1⟩))])
          (pool.set t.position (next (step t.env op s).1), (step t.env op s).2))
    (hidle : ∀ past pool s (t : Turn E), I past (pool, s) →
      I (past ++ [(.turn t, .performed none)]) (pool, s))
    (occasions : List (Occasion E X)) :
    I ((crew step prog handle).answers occasions ([], s))
      ((crew step prog handle).after occasions ([], s)) := by
  induction occasions using List.reverseRecOn with
  | nil => exact hbegin
  | append_singleton occasions occasion ih =>
      rw [Machine.answers_concat, Machine.after_concat]
      cases occasion with
      | other x => exact hother _ _ _ x ih
      | turn t =>
          by_cases hcall : ∃ op next,
              ((crew step prog handle).after occasions ([], s)).1[t.position]? = some (.call op next)
          · obtain ⟨op, next, hcall⟩ := hcall
            rw [crew_call hcall]
            exact hturn _ _ _ t op next ih hcall
          · rw [crew_idle (by simpa using hcall)]
            exact hidle _ _ _ t ih

variable (step prog handle) in
/-- Whatever is done and in whatever order: each job has followed a path of its own. -/
theorem onPath_answers (occasions : List (Occasion E X)) (s : σ) :
    OnPath prog ((crew step prog handle).answers occasions ([], s))
      ((crew step prog handle).after occasions ([], s)).1 := by
  apply tracks_of_crew (I := fun past st => OnPath prog past st.1)
  · exact onPath_nil prog
  · intro past pool s x h
    exact h.other x _ _
  · intro past pool s t op next h hcall
    exact h.turn t hcall _
  · intro past pool s t h
    exact h.idle t

/-- The path of one job, and what is left of its program. -/
theorem path_of_started {occasions : List (Occasion E X)} {s : σ} {i : Nat} {j : J}
    (hj : (startedIn ((crew step prog handle).answers occasions ([], s)))[i]? = some j) :
    ∃ q, ((crew step prog handle).after occasions ([], s)).1[i]? = some q ∧
      Path (prog j) (performedBy i ((crew step prog handle).answers occasions ([], s))) q := by
  have hall := onPath_answers step prog handle occasions s
  have hi := (List.getElem?_eq_some_iff.mp hj).1
  rw [← hall.length] at hi
  exact ⟨_, List.getElem?_eq_getElem hi, hall.path i j _ hj (List.getElem?_eq_getElem hi)⟩

/-- What was performed, was performed by one of the programs. -/
theorem OnPath.exists_performedBy {run : CrewRun E X Res J β} {pool : Pool Op Res ε α}
    (h : OnPath prog run pool) {e : Event Res} (he : e ∈ eventsIn run) :
    ∃ (i : Nat) (j : J), (startedIn run)[i]? = some j ∧ e ∈ performedBy i run := by
  obtain ⟨⟨occasion, outcome⟩, hmem, hout⟩ := List.mem_filterMap.mp he
  cases outcome with
  | answered b started => cases occasion <;> cases hout
  | performed event =>
      cases occasion with
      | other x => cases hout
      | turn t =>
          have hperformed : e ∈ performedBy t.position run :=
            List.mem_filterMap.mpr ⟨_, hmem, by simpa [eventOf] using hout⟩
          have hi : t.position < (startedIn run).length := by
            by_contra hpast
            rw [h.unstarted t.position (by omega)] at hperformed
            cases hperformed
          exact ⟨t.position, _, List.getElem?_eq_getElem hi, hperformed⟩

/-- An occasion is a turn of the program at a position. -/
def isTurnOf (i : Nat) : Occasion E X → Bool
  | .turn t => t.position = i
  | .other _ => false

/-- A job that has begun has ended, or it has performed an operation in each of its turns. -/
theorem ended_or_performed {before : List (Occasion E X)} {s : σ} {i : Nat}
    (hi : i < (startedIn ((crew step prog handle).answers before ([], s))).length)
    (later : List (Occasion E X)) :
    (∃ q, ((crew step prog handle).after (before ++ later) ([], s)).1[i]? = some q ∧ q.Ended) ∨
      later.countP (isTurnOf i) ≤
        (performedBy i ((crew step prog handle).answers (before ++ later) ([], s))).length := by
  induction later using List.reverseRecOn with
  | nil => simp
  | append_singleton later occasion ih =>
      rw [← List.append_assoc, Machine.answers_concat, Machine.after_concat, performedBy_concat,
        List.countP_append, List.countP_singleton, List.length_append]
      have hlength := (onPath_answers step prog handle (before ++ later) s).length
      have hbegun : i < ((crew step prog handle).after (before ++ later) ([], s)).1.length := by
        rw [hlength, Machine.answers_append, startedIn, List.flatMap_append, List.length_append]
        exact Nat.lt_add_right _ hi
      cases occasion with
      | other x =>
          rcases ih with ⟨q, hq, hended⟩ | hcount
          · exact .inl ⟨q, by simpa [crew, List.getElem?_append_left hbegun] using hq, hended⟩
          · exact .inr (by simpa [isTurnOf] using Nat.le_add_right_of_le hcount)
      | turn t =>
          by_cases hcall : ∃ op next,
              ((crew step prog handle).after (before ++ later) ([], s)).1[t.position]? =
                some (.call op next)
          · obtain ⟨op, next, hcall⟩ := hcall
            rw [crew_call hcall]
            by_cases hposition : t.position = i
            · rcases ih with ⟨q, hq, hended⟩ | hcount
              · rw [hposition, hq] at hcall
                rw [Option.some.inj hcall] at hended
                exact hended.elim
              · right
                simpa [isTurnOf, eventOf, hposition] using hcount
            · rw [List.getElem?_set_ne hposition]
              rcases ih with hended | hcount
              · exact .inl hended
              · right
                simpa [isTurnOf, eventOf, hposition] using hcount
          · rw [crew_idle (by simpa using hcall)]
            by_cases hposition : t.position = i
            · left
              refine ⟨_, List.getElem?_eq_getElem hbegun, ?_⟩
              cases hprogram : ((crew step prog handle).after (before ++ later) ([], s)).1[i] with
              | pure a => trivial
              | raise e => trivial
              | call op next =>
                  apply hcall
                  rw [hposition, List.getElem?_eq_getElem hbegun, hprogram]
                  exact ⟨op, next, rfl⟩
            · rcases ih with hended | hcount
              · exact .inl hended
              · right
                simpa [isTurnOf, eventOf, hposition] using hcount

end Program
