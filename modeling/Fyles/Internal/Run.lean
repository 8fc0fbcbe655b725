import Mathlib.Data.List.Basic
import Mathlib.Tactic.Common

/-!
# Runs of a partial step function

A system is a partial function `step : σ → ε → Option σ`: an event either takes a state to the
next one or cannot happen there. `Run step ok s es t` says that the events `es`, taken in order,
lead from `s` to `t`, and that each of them met the side condition `ok` in the state it was taken
in. With `ok` constantly true this is plain reachability.

Every prefix of a run is a run, so a statement about the last state of an arbitrary run is a
statement about every state of every run. `Run.invariant` packages the induction once.

## Main definitions

* `Run` — guarded runs, extended at the right end
* `runFrom`, `Admitted` — the same as a computable function, for concrete event lists

## Main results

* `Run.invariant` — the induction rule
* `Run.append` — runs compose
* `Run.of_runFrom` — a computed run is a run
* `forall_prefix_iff_admitted` — a condition that is exact for one step is exact for whole runs
-/

namespace Fyles

variable {σ ε : Type*}

/-- `Run step ok s es t`: the events `es` lead from `s` to `t`, each one taken in a state in
which `ok` holds of it. -/
inductive Run (step : σ → ε → Option σ) (ok : σ → ε → Prop) (s : σ) : List ε → σ → Prop
  | nil : Run step ok s [] s
  | snoc {es : List ε} {t u : σ} {e : ε} :
      Run step ok s es t → ok t e → step t e = some u → Run step ok s (es ++ [e]) u

namespace Run

variable {step : σ → ε → Option σ} {ok : σ → ε → Prop} {s t : σ} {es : List ε}

/-- **Invariants.** What holds at the start and is kept by every admitted step holds at the end
of every run. -/
theorem invariant {I : σ → Prop} (h : Run step ok s es t) (h0 : I s)
    (hstep : ∀ {t u e}, I t → ok t e → step t e = some u → I u) : I t := by
  induction h with
  | nil => exact h0
  | snoc _ hok hs ih => exact hstep ih hok hs

/-- Runs compose. -/
theorem append {u es'} (h : Run step ok s es t) (h' : Run step ok t es' u) :
    Run step ok s (es ++ es') u := by
  induction h' with
  | nil => rwa [List.append_nil]
  | snoc _ hok hs ih =>
    rw [← List.append_assoc]
    exact ih.snoc hok hs

end Run

/-- Run a list of events; `none` as soon as one of them cannot happen. -/
def runFrom (step : σ → ε → Option σ) (s : σ) : List ε → Option σ
  | [] => some s
  | e :: es => (step s e).bind fun s' => runFrom step s' es

@[simp] theorem runFrom_nil (step : σ → ε → Option σ) (s : σ) : runFrom step s [] = some s := rfl

@[simp] theorem runFrom_cons (step : σ → ε → Option σ) (s : σ) (e : ε) (es : List ε) :
    runFrom step s (e :: es) = (step s e).bind fun s' => runFrom step s' es := rfl

/-- The side condition holds of every event where it is taken. -/
def Admitted (step : σ → ε → Option σ) (ok : σ → ε → Prop) : σ → List ε → Prop
  | _, [] => True
  | s, e :: es => ok s e ∧ ∀ s', step s e = some s' → Admitted step ok s' es

instance Admitted.decidable {step : σ → ε → Option σ} {ok : σ → ε → Prop}
    [∀ s e, Decidable (ok s e)] : ∀ s es, Decidable (Admitted step ok s es)
  | _, [] => .isTrue trivial
  | s, e :: es =>
    match h : step s e with
    | none => decidable_of_iff (ok s e) (by simp [Admitted, h])
    | some s' =>
      have : Decidable (Admitted step ok s' es) := Admitted.decidable s' es
      decidable_of_iff (ok s e ∧ Admitted step ok s' es) (by simp [Admitted, h])

/-- A weaker side condition, on the events of the list. -/
theorem Admitted.imp {step : σ → ε → Option σ} {ok ok' : σ → ε → Prop} {s es}
    (h : Admitted step ok s es) (himp : ∀ s, ∀ e ∈ es, ok s e → ok' s e) :
    Admitted step ok' s es := by
  induction es generalizing s with
  | nil => trivial
  | cons e es ih =>
    exact ⟨himp s e List.mem_cons_self h.1, fun s' hs' =>
      ih (h.2 s' hs') fun s e he => himp s e (List.mem_cons_of_mem _ he)⟩

/-- A run that can be computed, all of whose events are admitted where they are taken, is a run
in the sense of `Run`. -/
theorem Run.of_runFrom {step : σ → ε → Option σ} {ok : σ → ε → Prop} {s t es}
    (h : runFrom step s es = some t) (hok : Admitted step ok s es) : Run step ok s es t := by
  have aux : ∀ (pre es : List ε) (u : σ), Run step ok s pre u → Admitted step ok u es →
      runFrom step u es = some t → Run step ok s (pre ++ es) t := by
    intro pre es
    induction es generalizing pre with
    | nil =>
      intro u hpre _ hu
      obtain rfl : u = t := by simpa using hu
      simpa using hpre
    | cons e es ih =>
      intro u hpre hok hu
      obtain ⟨u', hu', hrest⟩ := Option.bind_eq_some_iff.mp hu
      simpa using ih (pre ++ [e]) u' (hpre.snoc hok.1 hu') (hok.2 u' hu') hrest
  simpa using aux [] es s .nil hok h

/-- The last state of a computed run. That it is one is decided where possible. -/
theorem Run.get_runFrom {step : σ → ε → Option σ} {ok : σ → ε → Prop} {s es}
    (h : (runFrom step s es).isSome := by decide) (hok : Admitted step ok s es := by decide) :
    Run step ok s es ((runFrom step s es).get h) :=
  .of_runFrom (Option.some_get h).symm hok

/-- A run, and what it shows about its last state. -/
theorem Run.exists_and {step : σ → ε → Option σ} {ok : σ → ε → Prop} {s es s'} {P : σ → Prop}
    (hrun : Run step ok s es s') (h : Run step ok s es s' → P s') :
    ∃ s', Run step ok s es s' ∧ P s' :=
  ⟨s', hrun, h hrun⟩

/-- **Exact conditions.** Suppose that, wherever an invariant holds, a step from a state with the
property leads to a state with the property exactly if it is admitted. Then all states of a run have
the property exactly if all its steps are admitted. -/
theorem forall_prefix_iff_admitted {step : σ → ε → Option σ} {ok : σ → ε → Prop} {I P : σ → Prop}
    (hinv : ∀ {s t e}, I s → step s e = some t → I t)
    (hiff : ∀ {s t e}, I s → P s → step s e = some t → (P t ↔ ok s e)) {s es} (hI : I s) (hP : P s)
    (hrun : (runFrom step s es).isSome) :
    (∀ pre, pre <+: es → ∀ t, runFrom step s pre = some t → P t) ↔ Admitted step ok s es := by
  induction es generalizing s with
  | nil =>
    refine ⟨fun _ => trivial, fun _ pre hpre t ht => ?_⟩
    obtain rfl := List.prefix_nil.mp hpre
    obtain rfl : s = t := by simpa using ht
    exact hP
  | cons e es ih =>
    obtain ⟨u, hu⟩ : ∃ u, step s e = some u := by
      cases hs : step s e with
      | none => simp [hs] at hrun
      | some u => exact ⟨u, rfl⟩
    have hrest : (runFrom step u es).isSome := by simpa [hu] using hrun
    constructor
    · intro hall
      have hPu : P u := hall [e] (by simp) u (by simp [hu])
      refine ⟨(hiff hI hP hu).mp hPu, fun u' hu' => ?_⟩
      obtain rfl := Option.mem_unique hu hu'
      refine (ih (hinv hI hu) hPu hrest).mp fun pre hpre t ht => ?_
      exact hall (e :: pre) (List.cons_prefix_cons.mpr ⟨rfl, hpre⟩) t (by simpa [hu] using ht)
    · rintro ⟨hok, hadm⟩ pre hpre t ht
      have hPu : P u := (hiff hI hP hu).mpr hok
      cases pre with
      | nil =>
        obtain rfl : s = t := by simpa using ht
        exact hP
      | cons e' pre =>
        obtain ⟨rfl, htail⟩ := List.cons_prefix_cons.mp hpre
        exact (ih (hinv hI hu) hPu hrest).mpr (hadm u hu) pre htail t (by simpa [hu] using ht)

end Fyles
