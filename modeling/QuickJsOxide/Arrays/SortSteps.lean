import QuickJsOxide.Arrays.RqsortCorrect
import QuickJsOxide.Arrays.Sort

namespace QuickJsOxide.Arrays

open Library Program

/-! The sort as its requests are performed one after the other. -/

section

variable {World : Type}

/-- The step, performed to the end, has a good answer. -/
def Ends (host : Host World) (world : World) (step : SortStep)
    (good : World × Completion → Prop) : Prop :=
  ∃ answer, (finish host world step).Returns (.ok answer) ∧ good answer

def Finishes (host : Host World) (program : Program Failure (World × SortStep))
    (good : World × Completion → Prop) : Prop :=
  ∃ next, program.Returns (.ok next) ∧ Ends host next.1 next.2 good

def Proceeds (host : Host World) (world : World)
    (program : Program Failure SortStep)
    (good : World × Completion → Prop) : Prop :=
  ∃ step, program.Returns (.ok step) ∧ Ends host world step good

theorem Proceeds.finishes (proceeds : Proceeds host world program good) :
    Finishes host (do let step ← program; return (world, step)) good := by
  obtain ⟨step, returns, finished⟩ := proceeds
  exact ⟨(world, step), returns.bind (returns_pure _), finished⟩

theorem Proceeds.again (turn : (body state).Returns (.ok (.inl next)))
    (proceeds : Proceeds host world (loop body next) good) :
    Proceeds host world (loop body state) good := by
  obtain ⟨step, returns, finished⟩ := proceeds
  exact ⟨step, turn.again returns, finished⟩

theorem Proceeds.mono (proceeds : Proceeds host world program good)
    (weaker : ∀ answer, good answer → better answer) :
    Proceeds host world program better := by
  obtain ⟨step, returns, answer, finished, isGood⟩ := proceeds
  exact ⟨step, returns, answer, finished, weaker answer isGood⟩

theorem finishes_pure (finished : Ends host world step good) :
    Finishes host (pure (world, step)) good :=
  ⟨(world, step), returns_pure _, finished⟩

theorem Finishes.bind (returned : first.Returns (.ok value))
    (finishes : Finishes host (rest value) good) :
    Finishes host (first >>= rest) good := by
  obtain ⟨next, returns, finished⟩ := finishes
  exact ⟨next, returned.bind returns, finished⟩

theorem ends_complete (isGood : good (world, result)) :
    Ends host world (.complete result) good :=
  ⟨(world, result), Returns.break (returns_pure _), isGood⟩

theorem returns_performed {operation : Except RuntimeError α}
    (performed : operation = .ok value) :
    (lift (operation.mapError Failure.error)).Returns (.ok value) :=
  returns_lift_of_eq (by rw [performed]; rfl)

theorem finish_performed {operation : Except RuntimeError (World × α)}
    (continuation : World → α → Program Failure (World × SortStep))
    (performed : operation = .ok (after, result))
    (finishes : Finishes host (continuation after result) good)
    (body : finishBody host (world, step) = (do
      let (world, result) ← lift (operation.mapError .error)
      return .inl (← continuation world result))) :
    Ends host world step good := by
  obtain ⟨_, returns, answer, finished, isGood⟩ := finishes
  refine ⟨answer, Returns.again ?_ finished, isGood⟩
  rw [body]
  exact (returns_performed performed).bind (returns.bind (returns_pure _))

theorem finish_read
    (performed : host.getProperty world object key = .ok (after, result))
    (finishes : Finishes host (resume host after self result) good) :
    Ends host world (.read object key self) good :=
  finish_performed (resume host · self ·) performed finishes rfl

theorem finish_number
    (performed : host.toNumber world value = .ok (after, result))
    (finishes : Finishes host (number host after self result) good) :
    Ends host world (.number value self) good :=
  finish_performed (number host · self ·) performed finishes rfl

theorem finish_string
    (performed : host.toJsString world value = .ok (after, result))
    (finishes : Finishes host (string host after self result) good) :
    Ends host world (.string value self) good :=
  finish_performed (string host · self ·) performed finishes rfl

theorem finish_has
    (performed : host.hasProperty world object index = .ok (after, result))
    (finishes : Finishes host (boolean host after self result) good) :
    Ends host world (.has object index self) good :=
  finish_performed (boolean host · self ·) performed finishes rfl

theorem finish_call
    (performed : host.call world callable left right = .ok (after, result))
    (finishes : Finishes host (resume host after self result) good) :
    Ends host world (.call callable left right self) good :=
  finish_performed (resume host · self ·) performed finishes rfl

theorem finish_set (performed : host.setProperty world object index value =
      .ok (after, result))
    (finishes : Finishes host (set host after self index result) good) :
    Ends host world (.set object index value self) good :=
  finish_performed (set host · self index ·) performed finishes rfl

theorem finish_delete
    (performed : host.deleteProperty world object index = .ok (after, result))
    (finishes : Finishes host (boolean host after self result) good) :
    Ends host world (.delete object index self) good :=
  finish_performed (boolean host · self ·) performed finishes rfl

end

end QuickJsOxide.Arrays
