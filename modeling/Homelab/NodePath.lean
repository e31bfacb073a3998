import Homelab.JsNumber
import Mathlib.Data.List.Basic
import Mathlib.Tactic.SplitIfs

/-! POSIX paths as texts, as `path.posix` treats them. Empty segments and dots go, and a
double dot takes back the segment before it; links are not followed. -/
namespace Path
open Js

def slash : CodeUnit := 0x2F

def dot : JsString := js "."

def dotdot : JsString := js ".."

def segments (p : JsString) : List JsString := p.splitOn slash

def isAbsolute (p : JsString) : Bool := p.head? = some slash

/-- A double dot after the segments that are kept, of which the last one comes first;
`above` tells whether it may stand at the front. -/
def up (above : Bool) : List JsString → List JsString
  | [] => if above then [dotdot] else []
  | last :: rest => if last = dotdot then dotdot :: last :: rest else rest

/-- One segment more. -/
def push (above : Bool) (kept : List JsString) (s : JsString) : List JsString :=
  if s = [] ∨ s = dot then kept
  else if s = dotdot then up above kept
  else s :: kept

def reduce (above : Bool) (kept : List JsString) (ss : List JsString) : List JsString :=
  ss.foldl (push above) kept

/-- `normalizeString` -/
def normalizeString (above : Bool) (p : JsString) : JsString :=
  [slash].intercalate (reduce above [] (segments p)).reverse

/-- `path.normalize` -/
def normalize (p : JsString) : JsString :=
  if p = [] then dot
  else
    let trailing : JsString := if p.getLast? = some slash then [slash] else []
    let s := normalizeString (!isAbsolute p) p
    if isAbsolute p then (if s = [] then [slash] else slash :: s ++ trailing)
    else if s = [] then dot ++ trailing
    else s ++ trailing

/-- `path.join` -/
def join (ps : List JsString) : JsString := normalize ([slash].intercalate (ps.filter (· ≠ [])))

/-- The path as seen from the root. -/
def absolute (cwd p : JsString) : JsString := if isAbsolute p then p else cwd ++ slash :: p

/-- `path.resolve(p)` in the working directory `cwd`, which is absolute. -/
def resolve (cwd p : JsString) : JsString := slash :: normalizeString false (absolute cwd p)

/-- What a path names: the segments that lead there from the root. -/
def locate (cwd p : JsString) : List JsString := (reduce false [] (segments (absolute cwd p))).reverse

/-- The segment names an entry of a directory. -/
structure Plain (s : JsString) : Prop where
  nonempty : s ≠ []
  notDot : s ≠ dot
  notDotdot : s ≠ dotdot
  noSlash : slash ∉ s

instance (s : JsString) : Decidable (Plain s) :=
  decidable_of_iff (s ≠ [] ∧ s ≠ dot ∧ s ≠ dotdot ∧ slash ∉ s)
    ⟨fun h => ⟨h.1, h.2.1, h.2.2.1, h.2.2.2⟩, fun h => ⟨h.1, h.2, h.3, h.4⟩⟩

/-! ### Segments -/

theorem segments_append (p q : JsString) : segments (p ++ slash :: q) = segments p ++ segments q :=
  List.splitOn_append_cons_self p q

theorem segments_slash (p : JsString) : segments (slash :: p) = [] :: segments p :=
  segments_append [] p

theorem Plain.segments {s : JsString} (h : Plain s) : segments s = [s] :=
  List.splitOn_eq_singleton h.noSlash

theorem noSlash_of_mem_segments {p s : JsString} (h : s ∈ segments p) : slash ∉ s := by
  unfold segments at h
  induction p generalizing s with
  | nil =>
    rw [List.splitOn_nil, List.mem_singleton] at h
    rw [h]
    exact List.not_mem_nil
  | cons c p ih =>
    rw [List.splitOn_cons_eq_if_modifyHead] at h
    split_ifs at h with hc
    · rcases List.mem_cons.mp h with rfl | h
      · exact List.not_mem_nil
      · exact ih h
    · obtain ⟨first, rest, hsplit⟩ := List.exists_cons_of_ne_nil (List.splitOn_ne_nil slash p)
      rw [hsplit] at h ih
      rcases List.mem_cons.mp h with rfl | h
      · intro hmem
        rcases List.mem_cons.mp hmem with hmem | hmem
        · exact hc (beq_iff_eq.mpr hmem.symm)
        · exact ih (List.mem_cons_self ..) hmem
      · exact ih (List.mem_cons_of_mem _ h)

/-- The segments of a path are those that were put together. -/
theorem segments_intercalate {ss : List JsString} (h : ∀ s ∈ ss, slash ∉ s) (hne : ss ≠ []) :
    segments ([slash].intercalate ss) = ss :=
  List.splitOn_intercalate slash h hne

/-! ### Reducing -/

/-- What a kept segment can be. -/
structure Proper (s : JsString) : Prop where
  nonempty : s ≠ []
  notDot : s ≠ dot
  noSlash : slash ∉ s

theorem push_skip {s : JsString} (h : s = [] ∨ s = dot) (above : Bool) (kept : List JsString) :
    push above kept s = kept := if_pos h

theorem reduce_skip {s : JsString} (h : s = [] ∨ s = dot) (above : Bool) (kept ss : List JsString) :
    reduce above kept (s :: ss) = reduce above kept ss := by
  rw [reduce, List.foldl_cons, push_skip h, reduce]

theorem push_up (above : Bool) (kept : List JsString) : push above kept dotdot = up above kept := by
  rw [push, if_neg (by decide), if_pos rfl]

theorem push_plain {s : JsString} (h : Plain s) (above : Bool) (kept : List JsString) :
    push above kept s = s :: kept := by
  rw [push, if_neg (not_or.mpr ⟨h.nonempty, h.notDot⟩), if_neg h.notDotdot]

/-- A segment is skipped, takes one back, or is kept. -/
theorem segment_cases {s : JsString} (hs : slash ∉ s) : (s = [] ∨ s = dot) ∨ s = dotdot ∨ Plain s := by
  by_cases hskip : s = [] ∨ s = dot
  · exact Or.inl hskip
  by_cases hup : s = dotdot
  · exact Or.inr (Or.inl hup)
  · obtain ⟨hne, hdot⟩ := not_or.mp hskip
    exact Or.inr (Or.inr ⟨hne, hdot, hup, hs⟩)

theorem up_proper {above : Bool} {kept : List JsString} (h : ∀ l ∈ kept, Proper l) :
    ∀ l ∈ up above kept, Proper l := by
  have hdots : Proper dotdot := ⟨by decide, by decide, by decide⟩
  cases kept with
  | nil =>
    cases above with
    | false => exact h
    | true => exact fun l hl => List.mem_singleton.mp hl ▸ hdots
  | cons last rest =>
    rw [up]
    split_ifs
    · exact List.forall_mem_cons.mpr ⟨hdots, h⟩
    · exact (List.forall_mem_cons.mp h).2

theorem push_proper {above : Bool} {kept : List JsString} {s : JsString}
    (h : ∀ l ∈ kept, Proper l) (hs : slash ∉ s) : ∀ l ∈ push above kept s, Proper l := by
  rcases segment_cases hs with hskip | rfl | hplain
  · rwa [push_skip hskip]
  · rw [push_up]
    exact up_proper h
  · rw [push_plain hplain]
    exact List.forall_mem_cons.mpr ⟨⟨hplain.nonempty, hplain.notDot, hs⟩, h⟩

theorem reduce_proper (above : Bool) {ss : List JsString} (hss : ∀ s ∈ ss, slash ∉ s) :
    ∀ l ∈ reduce above [] ss, Proper l := by
  have key (kept : List JsString) (h : ∀ l ∈ kept, Proper l) :
      ∀ l ∈ reduce above kept ss, Proper l := by
    unfold reduce
    induction ss generalizing kept with
    | nil => exact h
    | cons s ss ih =>
      rw [List.foldl_cons]
      exact ih (fun t ht => hss t (List.mem_cons_of_mem _ ht)) _
        (push_proper h (hss s (List.mem_cons_self ..)))
  exact key [] fun _ hl => absurd hl List.not_mem_nil

theorem reduce_snoc (above : Bool) (kept ss : List JsString) (s : JsString) :
    reduce above kept (ss ++ [s]) = push above (reduce above kept ss) s := by
  rw [reduce, List.foldl_append, List.foldl_cons, List.foldl_nil, reduce]

theorem reduce_append (above : Bool) (kept ss ts : List JsString) :
    reduce above kept (ss ++ ts) = reduce above (reduce above kept ss) ts := List.foldl_append

/-- Reducing a second time, from the root or below any directory, changes nothing. -/
theorem reduce_again {above : Bool} {kept : List JsString} (hroot : above = true ∨ kept = [])
    {ss : List JsString} (hss : ∀ s ∈ ss, slash ∉ s) :
    reduce false kept (reduce above [] ss).reverse = reduce false kept ss := by
  induction ss using List.reverseRecOn with
  | nil => rfl
  | append_singleton ss s ih =>
    have hss' : ∀ t ∈ ss, slash ∉ t := fun t ht => hss t (List.mem_append_left _ ht)
    have hs := hss s (List.mem_append_right _ (List.mem_singleton_self s))
    have ih := ih hss'
    have hproper := reduce_proper above hss'
    rw [reduce_snoc, reduce_snoc, ← ih]
    generalize reduce above [] ss = once at hproper
    rcases segment_cases hs with hskip | rfl | hplain
    · rw [push_skip hskip, push_skip hskip]
    · rw [push_up, push_up]
      cases once with
      | nil =>
        rcases hroot with rfl | rfl
        · exact push_up false kept
        · cases above <;> rfl
      | cons last rest =>
        rw [up]
        split_ifs with hlast
        · rw [List.reverse_cons, reduce_snoc, push_up]
        · -- the segment that is taken back was kept, so the second pass takes it back too
          have hl := hproper last (List.mem_cons_self ..)
          have hkept : Plain last := ⟨hl.nonempty, hl.notDot, hlast, hl.noSlash⟩
          rw [List.reverse_cons, reduce_snoc, push_plain hkept, up, if_neg hlast]
    · rw [push_plain hplain, push_plain hplain, List.reverse_cons, reduce_snoc, push_plain hplain]

/-! ### Where a path leads -/

/-- The directories that the segments of a path start from, the last one first. -/
def start (cwd p : JsString) : List JsString :=
  if isAbsolute p then [] else reduce false [] (segments cwd)

theorem locate_eq (cwd p : JsString) :
    locate cwd p = (reduce false (start cwd p) (segments p)).reverse := by
  unfold locate absolute start
  split_ifs
  · rfl
  · rw [segments_append, reduce_append]

/-- The segments that were kept, put together and reduced again below any directory. -/
theorem reduce_normalizeString {above : Bool} {kept : List JsString}
    (hroot : above = true ∨ kept = []) (p : JsString) :
    reduce false kept (segments (normalizeString above p)) = reduce false kept (segments p) := by
  have hseg : ∀ s ∈ segments p, slash ∉ s := fun _ hs => noSlash_of_mem_segments hs
  rw [← reduce_again hroot hseg, normalizeString]
  by_cases hnil : (reduce above [] (segments p)).reverse = []
  · rw [hnil]
    exact reduce_skip (Or.inl rfl) false kept []
  · rw [segments_intercalate (fun s hs => (reduce_proper _ hseg s (List.mem_reverse.mp hs)).noSlash) hnil]

theorem locate_resolve (cwd p : JsString) : locate cwd (resolve cwd p) = locate cwd p := by
  have habs : isAbsolute (resolve cwd p) = true := rfl
  rw [locate_eq, start, if_pos habs, resolve, segments_slash, reduce_skip (Or.inl rfl),
    reduce_normalizeString (Or.inr rfl), locate]

theorem reduce_trailing (kept : List JsString) (s t : JsString) (ht : t = [] ∨ t = [slash]) :
    reduce false kept (segments (s ++ t)) = reduce false kept (segments s) := by
  rcases ht with rfl | rfl
  · rw [List.append_nil]
  · rw [segments_append, show segments [] = [[]] from rfl, reduce_snoc, push_skip (Or.inl rfl)]

/-- A text put together from segments that are kept does not start at the root. -/
theorem normalizeString_relative {above : Bool} {p : JsString} (hne : normalizeString above p ≠ [])
    (t : JsString) : isAbsolute (normalizeString above p ++ t) = false := by
  have hproper : ∀ l ∈ (reduce above [] (segments p)).reverse, Proper l := fun l hl =>
    reduce_proper _ (fun _ hs => noSlash_of_mem_segments hs) l (List.mem_reverse.mp hl)
  unfold normalizeString at hne ⊢
  cases hkept : (reduce above [] (segments p)).reverse with
  | nil =>
    rw [hkept] at hne
    exact absurd rfl hne
  | cons first rest =>
    have hfirst := hproper first (hkept ▸ List.mem_cons_self ..)
    obtain ⟨c, first, rfl⟩ := List.exists_cons_of_ne_nil hfirst.nonempty
    have hc : c ≠ slash := fun he => hfirst.noSlash (he ▸ List.mem_cons_self ..)
    cases rest with
    | nil => simpa [isAbsolute] using hc
    | cons second rest => simpa [isAbsolute, List.intercalate_cons_cons] using hc

theorem locate_normalize (cwd p : JsString) : locate cwd (normalize p) = locate cwd p := by
  unfold normalize
  by_cases hp : p = []
  · subst hp
    rw [if_pos rfl, locate_eq, locate_eq, show segments dot = [dot] by decide,
      reduce_skip (Or.inr rfl), show segments [] = [[]] from rfl, reduce_skip (Or.inl rfl)]
    rfl
  rw [if_neg hp]
  have htrail : (if p.getLast? = some slash then [slash] else []) = [] ∨
      (if p.getLast? = some slash then [slash] else []) = [slash] := by
    split_ifs
    · exact Or.inr rfl
    · exact Or.inl rfl
  generalize (if p.getLast? = some slash then [slash] else []) = trailing at htrail
  dsimp only
  by_cases habs : isAbsolute p = true
  · rw [if_pos habs, habs, Bool.not_true, locate_eq cwd p, start, if_pos habs,
      ← reduce_normalizeString (Or.inr rfl) p]
    split_ifs with hnil
    · rw [hnil]
      rfl
    · have hroot : isAbsolute (slash :: normalizeString false p ++ trailing) = true := rfl
      rw [locate_eq, start, if_pos hroot, List.cons_append, segments_slash, reduce_skip (Or.inl rfl),
        reduce_trailing _ _ _ htrail]
  · rw [if_neg habs, Bool.eq_false_iff.mpr habs, Bool.not_false, locate_eq cwd p, start, if_neg habs,
      ← reduce_normalizeString (Or.inl rfl) p]
    split_ifs with hnil
    · have hrel : isAbsolute (dot ++ trailing) = false := rfl
      rw [locate_eq, start, hrel, reduce_trailing _ _ _ htrail, hnil]
      rfl
    · rw [locate_eq, start, normalizeString_relative hnil, reduce_trailing _ _ _ htrail]
      rfl

/-- An entry of a directory lies right below it. -/
theorem locate_join {name : JsString} (hname : Plain name) (cwd dir : JsString) :
    locate cwd (join [dir, name]) = locate cwd dir ++ [name] := by
  have hrel : isAbsolute name = false := by
    obtain ⟨c, rest, rfl⟩ := List.exists_cons_of_ne_nil hname.nonempty
    exact decide_eq_false fun he => hname.noSlash (Option.some.inj he ▸ List.mem_cons_self ..)
  rw [join, locate_normalize]
  by_cases hdir : dir = []
  · subst hdir
    have hkeep : [[], name].filter (· ≠ []) = [name] := by simp [hname.nonempty]
    rw [hkeep, List.intercalate_singleton, locate_eq, hname.segments, locate_eq, start, hrel, reduce,
      List.foldl_cons, List.foldl_nil, push_plain hname, List.reverse_cons]
    rfl
  · obtain ⟨c, rest, hcons⟩ := List.exists_cons_of_ne_nil hdir
    have hhead : isAbsolute (dir ++ slash :: name) = isAbsolute dir := by rw [hcons]; rfl
    have hkeep : [dir, name].filter (· ≠ []) = [dir, name] := by simp [hdir, hname.nonempty]
    rw [hkeep, List.intercalate_cons_cons, List.intercalate_singleton, List.append_assoc,
      List.singleton_append,
      locate_eq, start, hhead, segments_append, hname.segments, reduce_snoc, push_plain hname,
      List.reverse_cons, locate_eq, start]

/-! ### Directory and file name -/

/-- `path.dirname`: the path up to the slash before its last segment. -/
def dirname (p : JsString) : JsString :=
  let upTo := (p.reverse.dropWhile (· = slash)).dropWhile (· ≠ slash)
  if p = [] then dot
  else if upTo.length ≤ 1 then (if isAbsolute p then [slash] else dot)
  else if isAbsolute p ∧ upTo.length = 2 then [slash, slash]
  else p.take (upTo.length-1)

/-- `path.basename` -/
def basename (p : JsString) : JsString :=
  ((p.reverse.dropWhile (· = slash)).takeWhile (· ≠ slash)).reverse

end Path
