/-!
# Runs of a transition system

A system is given by its initial states, by what an event does to a state, and by the
events that are admitted in a state.  `Reaches` is the set of states its runs reach, and
`Reaches.invariant` is the rule for invariants: what holds of the initial states and is
kept by every admitted event holds along every run.

A transducer answers every input.  `outputs_eq` is the rule for two runs: related states that
give the same answers and stay related give the same answers for ever.
-/

namespace Transition

variable {σ ε : Type} {init : σ → Prop} {step : σ → ε → σ} {admitted : σ → ε → Prop}

/-- The states reached from `init` by events that are admitted where they happen. -/
inductive Reaches (init : σ → Prop) (step : σ → ε → σ) (admitted : σ → ε → Prop) : σ → Prop
  | start {s : σ} : init s → Reaches init step admitted s
  | next {s : σ} {e : ε} :
      Reaches init step admitted s → admitted s e → Reaches init step admitted (step s e)

/-- An invariant of the initial states and of every admitted event holds along every run. -/
theorem Reaches.invariant {I : σ → Prop} (hinit : ∀ s, init s → I s)
    (hstep : ∀ s e, I s → admitted s e → I (step s e)) {s : σ}
    (h : Reaches init step admitted s) : I s := by
  induction h with
  | start hs => exact hinit _ hs
  | next _ hadmitted ih => exact hstep _ _ ih hadmitted

/-- Events that are admitted one after the other. -/
def AdmittedAll (step : σ → ε → σ) (admitted : σ → ε → Prop) : σ → List ε → Prop
  | _, [] => True
  | s, e :: es => admitted s e ∧ AdmittedAll step admitted (step s e) es

instance decidableAdmittedAll [∀ s e, Decidable (admitted s e)] :
    ∀ (s : σ) (es : List ε), Decidable (AdmittedAll step admitted s es)
  | _, [] => .isTrue trivial
  | s, e :: es =>
    have := decidableAdmittedAll (step s e) es
    inferInstanceAs (Decidable (admitted s e ∧ AdmittedAll step admitted (step s e) es))

/-- Events that are admitted one after the other, in two parts. -/
theorem admittedAll_append {s : σ} {es es' : List ε} :
    AdmittedAll step admitted s (es ++ es') ↔
      AdmittedAll step admitted s es ∧ AdmittedAll step admitted (es.foldl step s) es' := by
  induction es generalizing s with
  | nil => exact ⟨fun h => ⟨trivial, h⟩, And.right⟩
  | cons e es ih => exact (and_congr_right fun _ => ih).trans and_assoc.symm

/-- A run goes on with events that are admitted one after the other. -/
theorem Reaches.foldl {s : σ} (h : Reaches init step admitted s) (es : List ε)
    (hes : AdmittedAll step admitted s es) : Reaches init step admitted (es.foldl step s) := by
  induction es generalizing s with
  | nil => exact h
  | cons e es ih => exact ih (h.next hes.1) hes.2

/-- The answers of a transducer to a list of inputs. -/
def outputs {ι ω : Type} (act : σ → ι → σ × ω) : σ → List ι → List ω
  | _, [] => []
  | s, i :: is => (act s i).2 :: outputs act (act s i).1 is

/-- States that a relation ties together, with the same answers as long as it does, give the
same answers to every list of inputs. -/
theorem outputs_eq {ι ω : Type} {act : σ → ι → σ × ω} {R : σ → σ → Prop}
    (hR : ∀ s t i, R s t → (act s i).2 = (act t i).2 ∧ R (act s i).1 (act t i).1) {s t : σ}
    (h : R s t) (is : List ι) : outputs act s is = outputs act t is := by
  induction is generalizing s t with
  | nil => rfl
  | cons i is ih =>
    obtain ⟨hout, hnext⟩ := hR s t i h
    rw [outputs, outputs, hout, ih hnext]

end Transition
