import Homelab.JsonNesting

/-! Texts that can be told apart when they are joined by commas: one that stays nested
and has no comma at the depth it starts at. -/
namespace Js

/-- No comma of the text stands at the depth at which the text starts. -/
def NoComma (t : JsString) : Prop :=
  ∀ p q, t = p ++ 0x2C :: q → ∀ d, (Scan.out d).run p ≠ .out d

structure Piece (t : JsString) : Prop where
  nested : Nested t
  noComma : NoComma t

theorem Piece.plain {t : JsString} (h : ∀ c ∈ t, isPlain c = true ∧ c ≠ 0x2C) : Piece t := by
  refine ⟨.plain fun c hc => (h c hc).1, ?_⟩
  rintro p q rfl
  exact absurd rfl (h 0x2C (List.mem_append_right _ (List.mem_cons_self ..))).2

/-- What stands behind a piece: a comma or a closing bracket. -/
def PieceEnd (s : JsString) : Prop := ∃ c rest, s = c :: rest ∧ (c = 0x2C ∨ c = 0x5D ∨ c = 0x7D)

theorem PieceEnd.comma (s : JsString) : PieceEnd (0x2C :: s) := ⟨_, s, rfl, Or.inl rfl⟩

/-- A piece does not go on with the end of another. -/
theorem Piece.not_longer {t u s : JsString} (ht : Level t) (hlong : Piece (t ++ u))
    (hs : PieceEnd (u ++ s)) : u = [] := by
  cases u with
  | nil => rfl
  | cons c u =>
    obtain ⟨c', rest, heq, hc⟩ := hs
    obtain ⟨rfl, _⟩ := List.cons.inj heq
    have hbelow : Scan.AtLeast 0 ((Scan.out 0).run (t ++ [c])) := by
      have halong := hlong.nested.2 0
      rw [show t ++ c :: u = (t ++ [c]) ++ u by simp] at halong
      exact halong.cut
    rw [Scan.run_append, ht 0] at hbelow
    rcases hc with rfl | rfl | rfl
    · exact absurd (ht 0) (hlong.noComma t u rfl 0)
    · exact absurd (show (0 : ℤ) ≤ 0-1 from hbelow) (by decide)
    · exact absurd (show (0 : ℤ) ≤ 0-1 from hbelow) (by decide)

/-- The piece at the front of a text is determined by the text. -/
theorem Piece.split {t t' s s' : JsString} (ht : Piece t) (ht' : Piece t') (hs : PieceEnd s)
    (hs' : PieceEnd s') (h : t ++ s = t' ++ s') : t = t' ∧ s = s' := by
  rcases List.append_eq_append_iff.mp h with ⟨u, rfl, rfl⟩ | ⟨u, rfl, rfl⟩
  · obtain rfl := Piece.not_longer ht.nested.1 ht' hs
    exact ⟨(List.append_nil t).symm, rfl⟩
  · obtain rfl := Piece.not_longer ht'.nested.1 ht hs'
    exact ⟨List.append_nil t', rfl⟩

/-- Joined pieces are determined by their text and their number, or by their text alone
if none of them is empty. -/
theorem joinComma_inj {as bs : List JsString} (ha : ∀ t ∈ as, Piece t) (hb : ∀ t ∈ bs, Piece t)
    (hempty : [] ∉ as ∧ [] ∉ bs ∨ as.length = bs.length) {c : CodeUnit}
    (hc : c = 0x5D ∨ c = 0x7D) (h : joinComma as ++ [c] = joinComma bs ++ [c]) : as = bs := by
  have hend : PieceEnd [c] := ⟨c, [], rfl, Or.inr hc⟩
  have hcomma (t : JsString) : [c] ≠ 0x2C :: t := by
    intro heq
    rcases hc with rfl | rfl <;> exact absurd (List.cons.inj heq).1 (by decide)
  have hnil : Piece [] := .plain fun _ hx => absurd hx List.not_mem_nil
  -- a piece ends at a comma or at the closing bracket, so the first pieces agree, and then the rest
  induction as using joinComma.induct generalizing bs with
  | case1 =>
    cases bs with
    | nil => rfl
    | cons u us =>
      have hu : u ≠ [] := by
        rcases hempty with hempty | hlength
        · exact fun heq => hempty.2 (heq ▸ List.mem_cons_self ..)
        · cases hlength
      have hsplit {rest : JsString} (hrest : PieceEnd rest) (heq : [] ++ [c] = u ++ rest) : [] = u :=
        (hnil.split (hb u (List.mem_cons_self ..)) hend hrest heq).1
      cases us with
      | nil => exact absurd (hsplit hend h).symm hu
      | cons w ws =>
        rw [joinComma, joinComma, List.append_assoc] at h
        exact absurd (hsplit (.comma _) h).symm hu
  | case2 t =>
    have ht := ha t (List.mem_cons_self ..)
    cases bs with
    | nil =>
      rcases hempty with hempty | hlength
      · have heq := (ht.split hnil hend hend h).1
        exact absurd (heq ▸ List.mem_cons_self ..) hempty.1
      · cases hlength
    | cons u us =>
      have hu := hb u (List.mem_cons_self ..)
      cases us with
      | nil => rw [(ht.split hu hend hend h).1]
      | cons w ws =>
        rw [joinComma, joinComma, List.append_assoc] at h
        exact absurd (ht.split hu hend (.comma _) h).2 (hcomma _)
  | case3 t u ts ih =>
    have ht := ha t (List.mem_cons_self ..)
    rw [joinComma, List.append_assoc] at h
    cases bs with
    | nil =>
      rcases hempty with hempty | hlength
      · have heq := (ht.split hnil (.comma _) hend h).1
        exact absurd (heq ▸ List.mem_cons_self ..) hempty.1
      · cases hlength
    | cons t' us =>
      have ht' := hb t' (List.mem_cons_self ..)
      cases us with
      | nil => exact absurd (ht.split ht' (.comma _) hend h).2.symm (hcomma _)
      | cons u' ts' =>
        rw [joinComma, List.append_assoc] at h
        obtain ⟨rfl, hrest⟩ := ht.split ht' (.comma _) (.comma _) h
        have htail : u :: ts = u' :: ts' := by
          apply ih (fun x hx => ha x (List.mem_cons_of_mem _ hx))
            (fun x hx => hb x (List.mem_cons_of_mem _ hx)) _ (List.cons.inj hrest).2
          refine hempty.imp ?_ Nat.succ.inj
          exact fun hmem => ⟨fun hx => hmem.1 (List.mem_cons_of_mem _ hx),
            fun hx => hmem.2 (List.mem_cons_of_mem _ hx)⟩
        rw [htail]

/-! ### The pieces of a JSON text -/

/-- Inside a bracketed text the scanner stays below the brackets. -/
theorem Piece.bracketed {c c' : CodeUnit} {s : JsString} (hc : c ≠ 0x2C)
    (hc' : c' ≠ 0x2C) (hnested : Nested (c :: s ++ [c']))
    (halong : ∀ d, ∃ P : Scan → Prop, Scan.Along P ((Scan.out d).step c) s ∧ ¬P (.out d)) :
    Piece (c :: s ++ [c']) := by
  refine ⟨hnested, ?_⟩
  intro p q h d hrun
  obtain ⟨P, hP, hout⟩ := halong d
  cases p with
  | nil => exact hc (List.cons.inj h).1
  | cons e p =>
    obtain ⟨rfl, hinner⟩ := List.cons.inj h
    change s ++ [c'] = p ++ 0x2C :: q at hinner
    rcases List.append_eq_append_iff.mp hinner with ⟨u, rfl, hu⟩ | ⟨u, rfl, hu⟩
    · -- the comma stands behind the closing bracket
      cases u with
      | nil => exact hc' (List.cons.inj hu).1
      | cons f u => simp at hu
    · have hstate := hP.cut
      exact hout (hrun ▸ hstate)

theorem Piece.array {s : JsString} (h : Nested s) : Piece (0x5B :: s ++ [0x5D]) := by
  apply Piece.bracketed (by decide) (by decide) h.array
  intro d
  refine ⟨Scan.AtLeast (d+1), h.2 (d+1), ?_⟩
  exact fun hle => absurd (show d+1 ≤ d from hle) (by omega)

theorem Piece.object {s : JsString} (h : Nested s) : Piece (0x7B :: s ++ [0x7D]) := by
  apply Piece.bracketed (by decide) (by decide) h.object
  intro d
  refine ⟨Scan.AtLeast (d+1), h.2 (d+1), ?_⟩
  exact fun hle => absurd (show d+1 ≤ d from hle) (by omega)

theorem Piece.quote (s : JsString) : Piece (Js.quote s) := by
  apply Piece.bracketed (by decide) (by decide) (quote_nested s)
  intro d
  exact ⟨Scan.InString d, (quoteBody_inside s d).2, id⟩

/-- A level text without a comma at its depth, and a piece behind it, are a piece. -/
theorem Piece.append {a b : JsString} (ha : Piece a) (hb : Piece b) : Piece (a ++ b) := by
  refine ⟨ha.nested.append hb.nested, ?_⟩
  intro p q h d hrun
  rcases List.append_eq_append_iff.mp h with ⟨u, rfl, hu⟩ | ⟨u, rfl, hu⟩
  · apply hb.noComma u q hu d
    rwa [Scan.run_append, ha.nested.1 d] at hrun
  · cases u with
    | nil =>
      have hempty : b = [] ++ 0x2C :: q := hu.symm
      exact hb.noComma [] q hempty d rfl
    | cons c u =>
      obtain ⟨rfl, _⟩ := List.cons.inj hu
      exact ha.noComma p u rfl d hrun

theorem Piece.ofAll {t : JsString} (h : t.all (fun c => isPlain c && c != 0x2C) = true) : Piece t := by
  apply Piece.plain
  intro c hc
  have hunit := List.all_eq_true.mp h c hc
  rw [Bool.and_eq_true, bne_iff_ne] at hunit
  exact hunit

theorem Piece.number (d : Decimal) : Piece d.toText := by
  apply Piece.plain
  intro c hc
  refine ⟨numberUnits_plain d.toText_units c hc, ?_⟩
  rintro rfl
  exact absurd (d.toText_units 0x2C hc) (by decide)

/-- A member of an object, from the text of its value. -/
def memberText (m : JsString × JsString) : JsString := Js.quote m.1 ++ 0x3A :: m.2

theorem Piece.member {m : JsString × JsString} (h : Piece m.2) : Piece (memberText m) :=
  (Piece.quote m.1).append ((Piece.ofAll (t := [0x3A]) (by decide)).append h)

theorem memberText_inj {m m' : JsString × JsString} (h : memberText m = memberText m') : m = m' := by
  have hbody (x : JsString × JsString) :
      memberText x = 0x22 :: (quoteBody x.1 ++ 0x22 :: 0x3A :: x.2) := by
    simp [memberText, Js.quote]
  rw [hbody, hbody] at h
  have hparse := congrArg parseStringBody (List.cons.inj h).2
  rw [parseStringBody_quoteBody, parseStringBody_quoteBody, Option.some.injEq, Prod.mk.injEq] at hparse
  exact Prod.ext hparse.1 (List.cons.inj hparse.2).2

theorem Nested.joinComma {ts : List JsString} (h : ∀ t ∈ ts, Piece t) : Nested (Js.joinComma ts) :=
  nestedRule.joinComma ts fun t ht => (h t ht).nested

theorem memberText_ne_nil (m : JsString × JsString) : memberText m ≠ [] := List.cons_ne_nil _ _

end Js
