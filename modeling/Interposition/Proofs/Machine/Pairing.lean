import Interposition.Proofs.Checks
import Interposition.Proofs.Machine.Course

/-!
# Interposition.Proofs.Machine.Pairing — two runs side by side

Two machines run side by side when the frames of the one are related to those of the other. What a
machine does with a frame besides executing its instruction is little: it gives the frame a value,
moves it on, raises a failure in it or leaves it. A relation of frames that is kept by these is a
`Pairing`. It is kept then by all that happens to waiting frames: when a failure goes through them
(`Pairing.unwind`), when a value comes back to them (`Pairing.giveBack`) and when they are all left
(`Pairing.abandon_eq`).
-/

namespace Interposition

/-- Related frames are at the same place, and stay related when the same is done to both. The
values that they get are related too. -/
structure Pairing (F : Frame → Frame → Prop) (V : Value → Value → Prop) : Prop where
  place_eq : ∀ {f f'}, F f f' → f'.place = f.place
  push : ∀ {f f' v v'}, F f f' → V v v' → F (f.push v) (f'.push v')
  advance : ∀ {f f'}, F f f' → Alike F f.advance f'.advance
  raise : ∀ {f f'}, F f f' → ∀ failure, Alike F (f.raise failure) (f'.raise failure)

variable {F : Frame → Frame → Prop} {V : Value → Value → Prop}

/-! ## What is related -/

structure Caller.Paired (F : Frame → Frame → Prop) (c c' : Caller) : Prop where
  frame : F c.frame c'.frame
  keepsResult_eq : c'.keepsResult = c.keepsResult

/-- As many frames wait, each for the same. -/
def Callers.Paired (F : Frame → Frame → Prop) (cs cs' : Callers) : Prop :=
  List.Forall₂ (Caller.Paired F) cs.list cs'.list

theorem Callers.Paired.depth_eq {cs cs' : Callers} (h : cs.Paired F cs') :
    cs'.depth = cs.depth := by
  rw [cs'.depth_eq, cs.depth_eq, h.length_eq]

/-- The same end, up to the value that is returned. -/
inductive Ending.Paired (V : Value → Value → Prop) : Ending → Ending → Prop
  | returned {v v' : Value} (h : V v v') : Paired V (.returned v) (.returned v')
  | failed (failure : Failure) : Paired V (.failed failure) (.failed failure)
  | exited (code : Int32) : Paired V (.exited code) (.exited code)

theorem Ending.Paired.eq {e e' : Ending} (h : e.Paired (· = ·) e') : e = e' := by
  cases h with
  | returned h => rw [h]
  | failed failure => rfl
  | exited code => rfl

/-- What comes after a step of two machines side by side. -/
inductive Progress.Paired (F : Frame → Frame → Prop) (V : Value → Value → Prop) :
    Progress → Progress → Prop
  | running {f f' : Frame} {cs cs' : Callers} (hf : F f f') (hcs : cs.Paired F cs') :
      Paired F V (.running f cs) (.running f' cs')
  | ended {e e' : Ending} (h : e.Paired V e') : Paired F V (.ended e) (.ended e')

/-! ## What is kept -/

namespace Pairing

theorem unwind (hF : Pairing F V) {cs cs' : List Caller}
    (h : List.Forall₂ (Caller.Paired F) cs cs') (failure : Failure) :
    (unwind failure cs).Paired F V (unwind failure cs') := by
  induction h generalizing failure with
  | nil => exact .ended (.failed _)
  | @cons c c' rest rest' hc hrest ih =>
    have hraise := hF.raise hc.frame failure
    unfold Interposition.unwind
    generalize c.frame.raise failure = outcome, c'.frame.raise failure = outcome' at hraise
    cases hraise with
    | ok hf => exact .running hf hrest
    | error later => exact ih later

theorem proceed (hF : Pairing F V) {cs cs' : Callers} {outcome outcome' : Except Failure Frame}
    (hcs : cs.Paired F cs') (h : Alike F outcome outcome') :
    (proceed cs outcome).Paired F V (proceed cs' outcome') := by
  cases h with
  | ok hf => exact .running hf hcs
  | error failure => exact hF.unwind hcs failure

/-- A frame goes on after a call, with the result if it keeps it. -/
theorem resume (hF : Pairing F V) {f f' : Frame} {v v' : Value} (hf : F f f') (hv : V v v')
    (keeps : Bool) :
    Alike F (if keeps then f.push v else f).advance (if keeps then f'.push v' else f').advance := by
  cases keeps with
  | true => exact hF.advance (hF.push hf hv)
  | false => exact hF.advance hf

theorem giveBack (hF : Pairing F V) {cs cs' : Callers} {v v' : Value} (hcs : cs.Paired F cs')
    (hv : V v v') : (giveBack v cs).Paired F V (giveBack v' cs') := by
  rcases cs with ⟨list, depth, hdepth⟩
  rcases cs' with ⟨list', depth', hdepth'⟩
  cases hcs with
  | nil => exact .ended (.returned hv)
  | @cons c c' rest rest' hc hrest =>
    simp only [Interposition.giveBack, Callers.pop?, hc.keepsResult_eq]
    exact hF.proceed hrest (hF.resume hc.frame hv c.keepsResult)

/-- A failure leaves the same places behind. -/
theorem abandon_eq (hF : Pairing F V) {f f' : Frame} {cs cs' : Callers} (hf : F f f')
    (hcs : cs.Paired F cs') (failure : Failure) :
    abandon failure f' cs' = abandon failure f cs := by
  unfold abandon
  rw [hF.place_eq hf]
  generalize Failure.frame f.place failure = failure
  unfold Callers.Paired at hcs
  generalize cs.list = list, cs'.list = list' at hcs
  induction hcs generalizing failure with
  | nil => rfl
  | cons hc _ ih =>
    rw [List.foldl_cons, List.foldl_cons, hF.place_eq hc.frame]
    exact ih _

end Pairing

end Interposition
