import Mathlib.Data.List.Basic
import Mathlib.Tactic.TypeStar

/-!
# Messages in fragments

A message arrives as a sequence of frames, the last of which is marked.  The
frames of one sender are cut behind every marked frame; a message is what the
frames of one piece carry.
-/

namespace Reassembly

structure Frame (α : Type*) where
  payload : List α
  fin : Bool

variable {α : Type*}

/-- The pieces that end in a marked frame, and the frames behind them. -/
def cut : List (Frame α) → List (List (Frame α)) × List (Frame α)
  | [] => ([], [])
  | frame :: frames =>
      let later := cut frames
      if frame.fin then ([frame] :: later.1, later.2)
      else
        match later.1 with
        | [] => ([], frame :: later.2)
        | piece :: pieces => ((frame :: piece) :: pieces, later.2)

def carried (frames : List (Frame α)) : List α :=
  frames.flatMap Frame.payload

def messages (frames : List (Frame α)) : List (List α) :=
  (cut frames).1.map carried

def unfinished (frames : List (Frame α)) : List α :=
  carried (cut frames).2

theorem cut_concat (frames : List (Frame α)) (frame : Frame α) :
    cut (frames ++ [frame]) =
      if frame.fin then ((cut frames).1 ++ [(cut frames).2 ++ [frame]], [])
      else ((cut frames).1, (cut frames).2 ++ [frame]) := by
  induction frames with
  | nil =>
      cases hfin : frame.fin with
      | true => simp [cut, hfin]
      | false => simp [cut, hfin]
  | cons first frames ih =>
      rw [List.cons_append, cut, cut, ih]
      cases hfirst : first.fin with
      | true =>
          cases hfin : frame.fin with
          | true => simp
          | false => simp
      | false =>
          cases hpieces : (cut frames).1 with
          | nil =>
              cases hfin : frame.fin with
              | true => simp
              | false => simp
          | cons piece pieces =>
              cases hfin : frame.fin with
              | true => simp
              | false => simp

theorem carried_concat (frames : List (Frame α)) (frame : Frame α) :
    carried (frames ++ [frame]) = carried frames ++ frame.payload := by
  simp [carried]

theorem messages_concat (frames : List (Frame α)) (frame : Frame α) :
    messages (frames ++ [frame]) =
      if frame.fin then
        messages frames ++ [unfinished frames ++ frame.payload]
      else messages frames := by
  unfold messages unfinished
  rw [cut_concat, ← carried_concat]
  split_ifs
  · rw [List.map_append, List.map_singleton]
  · rfl

theorem unfinished_concat (frames : List (Frame α)) (frame : Frame α) :
    unfinished (frames ++ [frame]) =
      if frame.fin then [] else unfinished frames ++ frame.payload := by
  unfold unfinished
  rw [cut_concat, ← carried_concat]
  split_ifs
  · rfl
  · rfl

end Reassembly
