import Homelab.NodePath
import Mathlib.Data.List.DropRight

/-! Segments as steps from a directory: some levels up, and then down by names. -/
namespace Path
open Js

/-- The levels that lead up, and the names that then lead down, of which the last one comes
first. -/
structure Steps where
  ups : ℕ
  names : List JsString
deriving DecidableEq

/-- One segment more. -/
def Steps.step (t : Steps) (s : JsString) : Steps :=
  if s = [] ∨ s = dot then t
  else if s = dotdot then
    match t.names with
    | [] => ⟨t.ups+1, []⟩
    | _ :: rest => ⟨t.ups, rest⟩
  else ⟨t.ups, s :: t.names⟩

def steps (ss : List JsString) : Steps := ss.foldl Steps.step ⟨0, []⟩

/-- Where the steps lead from a directory; there is nothing above the root. -/
def Steps.after (t : Steps) (dir : List JsString) : List JsString := dir.rdrop t.ups ++ t.names.reverse

/-- From a directory given with its last segment first. -/
def Steps.kept (t : Steps) (dir : List JsString) : List JsString := t.names ++ dir.drop t.ups

theorem Steps.reverse_kept (t : Steps) (dir : List JsString) :
    (t.kept dir).reverse = t.after dir.reverse := by
  rw [Steps.kept, Steps.after, List.reverse_append, List.rdrop_eq_reverse_drop_reverse,
    List.reverse_reverse]

/-- No name is a double dot. -/
def Down (names : List JsString) : Prop := ∀ s ∈ names, s ≠ dotdot

theorem Steps.step_down {t : Steps} (h : Down t.names) (s : JsString) : Down (t.step s).names := by
  rw [Steps.step]
  split_ifs with hskip hup
  · exact h
  · cases hnames : t.names with
    | nil => exact fun s hs => absurd hs List.not_mem_nil
    | cons last rest => exact (List.forall_mem_cons.mp (hnames ▸ h)).2
  · exact List.forall_mem_cons.mpr ⟨hup, h⟩

/-- A segment does to the directory what it does to the steps. -/
theorem push_kept {t : Steps} {dir : List JsString} (ht : Down t.names) (hdir : Down dir)
    (s : JsString) : push false (t.kept dir) s = (t.step s).kept dir := by
  rw [push, Steps.step]
  split_ifs with hskip hup
  · rfl
  · cases hnames : t.names with
    | nil =>
      rw [Steps.kept, hnames, List.nil_append, Steps.kept, List.nil_append]
      -- one level more is taken from the directory, if there is one left
      cases hrest : dir.drop t.ups with
      | nil =>
        have hle : dir.length ≤ t.ups := List.drop_eq_nil_iff.mp hrest
        have hmore : dir.drop (t.ups+1) = [] := List.drop_eq_nil_of_le (by omega)
        rw [hmore]
        rfl
      | cons last rest =>
        have hlast : last ≠ dotdot := hdir last (List.mem_of_mem_drop (hrest ▸ List.mem_cons_self ..))
        have hmore : dir.drop (t.ups+1) = rest := by
          rw [← List.drop_drop, hrest, List.drop_one, List.tail_cons]
        rw [up, if_neg hlast, hmore]
    | cons last rest =>
      have hlast : last ≠ dotdot := ht last (hnames ▸ List.mem_cons_self ..)
      rw [Steps.kept, hnames, List.cons_append, up, if_neg hlast, Steps.kept]
  · rw [Steps.kept, Steps.kept, List.cons_append]

theorem reduce_kept {t : Steps} {dir : List JsString} (ht : Down t.names) (hdir : Down dir)
    (ss : List JsString) :
    reduce false (t.kept dir) ss = (ss.foldl Steps.step t).kept dir := by
  induction ss generalizing t with
  | nil => rfl
  | cons s ss ih =>
    have hstep := ih (Steps.step_down ht s)
    rw [← push_kept ht hdir s] at hstep
    rw [reduce, List.foldl_cons, List.foldl_cons, ← hstep, reduce]

/-- Where double dots may stand at the front, they are the levels up. -/
theorem push_above {t : Steps} (h : Down t.names) (s : JsString) :
    push true (t.names ++ List.replicate t.ups dotdot) s =
      (t.step s).names ++ List.replicate (t.step s).ups dotdot := by
  rw [push, Steps.step]
  split_ifs with hskip hup
  · rfl
  · cases hnames : t.names with
    | nil =>
      -- the last segment is a double dot itself, or there is none
      cases hups : t.ups with
      | zero => rfl
      | succ n => rfl
    | cons last rest =>
      have hlast : last ≠ dotdot := h last (hnames ▸ List.mem_cons_self ..)
      rw [List.cons_append, up, if_neg hlast]
  · rfl

theorem reduce_foldl_above {t : Steps} (h : Down t.names) (ss : List JsString) :
    reduce true (t.names ++ List.replicate t.ups dotdot) ss =
      (ss.foldl Steps.step t).names ++ List.replicate (ss.foldl Steps.step t).ups dotdot := by
  induction ss generalizing t with
  | nil => rfl
  | cons s ss ih =>
    have hstep := ih (Steps.step_down h s)
    rw [← push_above h s] at hstep
    rw [reduce, List.foldl_cons, List.foldl_cons, ← hstep, reduce]

theorem foldl_step_down {t : Steps} (ht : Down t.names) (ss : List JsString) :
    Down (ss.foldl Steps.step t).names := by
  induction ss generalizing t with
  | nil => exact ht
  | cons s ss ih => exact ih (Steps.step_down ht s)

theorem down_nil : Down [] := fun _ hs => absurd hs List.not_mem_nil

/-- What is kept of the segments of a relative path: the names, and before them the levels up. -/
theorem reduce_above (ss : List JsString) :
    reduce true [] ss = (steps ss).names ++ List.replicate (steps ss).ups dotdot :=
  reduce_foldl_above (t := ⟨0, []⟩) down_nil ss

/-- Steps from a directory that has no double dot lead where reducing does. -/
theorem reduce_steps {dir : List JsString} (hdir : Down dir) (ss : List JsString) :
    reduce false dir ss = (steps ss).kept dir := reduce_kept (t := ⟨0, []⟩) down_nil hdir ss

/-- What is kept when nothing may stand at the front has no double dot. -/
theorem reduce_down (ss : List JsString) : Down (reduce false [] ss) := by
  have hnames : (steps ss).kept [] = (steps ss).names := by
    rw [Steps.kept, List.drop_nil, List.append_nil]
  rw [reduce_steps down_nil, hnames]
  exact foldl_step_down (t := ⟨0, []⟩) down_nil ss

/-! ### Paths from the root -/

/-- Where a path leads; one that is not absolute starts at the root. -/
def fromRoot (p : JsString) : List JsString := locate [slash] p

/-- The path leads to the directory or to something below it. -/
def Within (dir path : List JsString) : Prop := dir <+: path

instance (dir path : List JsString) : Decidable (Within dir path) :=
  inferInstanceAs (Decidable (dir <+: path))

theorem fromRoot_eq (p : JsString) : fromRoot p = (reduce false [] (segments p)).reverse := by
  have hroot : reduce false [] (segments [slash]) = [] := by decide
  rw [fromRoot, locate_eq, start, hroot, ite_self]

/-- What comes after a slash are steps from where the part before it leads. -/
theorem fromRoot_append (p q : JsString) :
    fromRoot (p ++ slash :: q) = (steps (segments q)).after (fromRoot p) := by
  rw [fromRoot_eq, segments_append, reduce_append, reduce_steps (reduce_down _), Steps.reverse_kept,
    fromRoot_eq]

/-- Steps that never lead above a directory end in it or below it. -/
theorem within_after {t : Steps} (h : t.ups = 0) (dir : List JsString) : Within dir (t.after dir) := by
  rw [Steps.after, h, List.rdrop_zero]
  exact List.prefix_append dir t.names.reverse

end Path
