import Mathlib.Data.Nat.Notation

/-! Command lists of the POSIX shell: what is run, and which exit status is reported. What
comes of a program is up to the host, as far as `May` allows. -/
namespace Shell

variable {Text : Type}

/-- `inner` stands for a command substitution among the words of `outer`: it runs first. -/
inductive Script (Text : Type)
  | run (words : List Text)
  | pipe (left right : Script Text)
  | both (left right : Script Text)
  | loop (cond body : Script Text)
  | into (s : Script Text) (file : Text)
  | stderr (s : Script Text) (target : Text)
  | subst (inner outer : Script Text)

/-- The programs that a script may run. -/
def Script.programs : Script Text → List (List Text)
  | .run words => [words]
  | .pipe left right => left.programs ++ right.programs
  | .both left right => left.programs ++ right.programs
  | .loop cond body => cond.programs ++ body.programs
  | .into s _ => s.programs
  | .stderr s _ => s.programs
  | .subst inner outer => inner.programs ++ outer.programs

/-- What comes of a program: the status that it exits with, what it prints, and whether it
did what it is for. -/
structure Outcome (Text : Type) where
  status : ℕ
  stdout : Text
  stderr : Text
  worked : Bool

/-- A program that was run. -/
structure Ran (Text : Type) where
  words : List Text
  outcome : Outcome Text

variable [EmptyCollection Text]

def Outcome.idle : Outcome Text := ⟨0, ∅, ∅, true⟩

mutual
/-- A script is run: the programs that it ran and the outcome that is reported. -/
inductive Exec (May : List Text → Outcome Text → Prop) :
    Script Text → List (Ran Text) → Outcome Text → Prop
  | run {words : List Text} {o : Outcome Text} (h : May words o) : Exec May (.run words) [⟨words, o⟩] o
  | pipe {l r : Script Text} {ranL ranR : List (Ran Text)} {oL oR : Outcome Text}
      (hl : Exec May l ranL oL) (hr : Exec May r ranR oR) : Exec May (.pipe l r) (ranL ++ ranR) oR
  | both_stop {l r : Script Text} {ran : List (Ran Text)} {o : Outcome Text} (hl : Exec May l ran o)
      (hstop : o.status ≠ 0) : Exec May (.both l r) ran o
  | both_go {l r : Script Text} {ranL ranR : List (Ran Text)} {oL oR : Outcome Text}
      (hl : Exec May l ranL oL) (hgo : oL.status = 0) (hr : Exec May r ranR oR) :
      Exec May (.both l r) (ranL ++ ranR) oR
  | loop {cond body : Script Text} {ran : List (Ran Text)} {o : Outcome Text}
      (h : Loops May cond body .idle ran o) : Exec May (.loop cond body) ran o
  | into {s : Script Text} {file : Text} {ran : List (Ran Text)} {o : Outcome Text}
      (h : Exec May s ran o) : Exec May (.into s file) ran { o with stdout := ∅ }
  /-- The file cannot be opened, and nothing is run. -/
  | into_fails {s : Script Text} {file : Text} {o : Outcome Text} (h : o.status ≠ 0) :
      Exec May (.into s file) [] o
  | stderr {s : Script Text} {target : Text} {ran : List (Ran Text)} {o : Outcome Text}
      (h : Exec May s ran o) : Exec May (.stderr s target) ran o
  | subst {inner outer : Script Text} {ranI ranO : List (Ran Text)} {oI oO : Outcome Text}
      (hi : Exec May inner ranI oI) (ho : Exec May outer ranO oO) :
      Exec May (.subst inner outer) (ranI ++ ranO) oO

/-- The turns of a loop; it reports what its body reported last. -/
inductive Loops (May : List Text → Outcome Text → Prop) :
    Script Text → Script Text → Outcome Text → List (Ran Text) → Outcome Text → Prop
  | stop {cond body : Script Text} {last : Outcome Text} {ran : List (Ran Text)} {o : Outcome Text}
      (h : Exec May cond ran o) (hstop : o.status ≠ 0) : Loops May cond body last ran last
  | turn {cond body : Script Text} {last : Outcome Text} {ranC ranB rest : List (Ran Text)}
      {oC oB o : Outcome Text} (hc : Exec May cond ranC oC) (hgo : oC.status = 0)
      (hb : Exec May body ranB oB) (h : Loops May cond body oB rest o) :
      Loops May cond body last (ranC ++ ranB ++ rest) o
end

variable {May : List Text → Outcome Text → Prop} {ran : List (Ran Text)} {o : Outcome Text}

theorem exec_run {words : List Text} :
    Exec May (.run words) ran o ↔ May words o ∧ ran = [⟨words, o⟩] := by
  constructor
  · intro h
    cases h with
    | run h => exact ⟨h, rfl⟩
  · rintro ⟨h, rfl⟩
    exact .run h

/-- A pipeline runs both sides and reports the right one. -/
theorem exec_pipe {l r : Script Text} : Exec May (.pipe l r) ran o ↔
    ∃ ranL ranR oL, Exec May l ranL oL ∧ Exec May r ranR o ∧ ran = ranL ++ ranR := by
  constructor
  · intro h
    cases h with
    | pipe hl hr => exact ⟨_, _, _, hl, hr, rfl⟩
  · rintro ⟨_, _, _, hl, hr, rfl⟩
    exact .pipe hl hr

/-- The script exits with zero only if every program that it ran did its work. -/
def Honest (May : List Text → Outcome Text → Prop) (s : Script Text) : Prop :=
  ∀ ran o, Exec May s ran o → o.status = 0 → ∀ p ∈ ran, p.outcome.worked = true

theorem honest_run {words : List Text} (h : ∀ o, May words o → o.status = 0 → o.worked = true) :
    Honest May (.run words) := by
  intro ran o hexec hzero p hp
  obtain ⟨hmay, rfl⟩ := exec_run.mp hexec
  rw [List.mem_singleton.mp hp]
  exact h o hmay hzero

end Shell
