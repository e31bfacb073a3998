import Homelab.LogQL
import Homelab.LogsService

/-! What Loki reads from the text of `buildLogQL`. -/
namespace Js

/-! ### ASCII in UTF-8 -/

theorem scalars_append (a : JsString) {c : CodeUnit} (hlow : isLow c = false) (b : JsString) :
    scalars (a ++ c :: b) = scalars a ++ scalars (c :: b) := by
  fun_induction scalars a with
  | case1 => rfl
  | case2 d =>
    rw [List.singleton_append, scalars, hlow, Bool.and_false, if_neg Bool.false_ne_true]
    rfl
  | case3 d e rest hpair ih =>
    rw [List.cons_append, List.cons_append, scalars, if_pos hpair, ih]
    rfl
  | case4 d e rest hpair ih =>
    rw [List.cons_append, List.cons_append, scalars, if_neg hpair, ← List.cons_append, ih]
    rfl

theorem unitScalar_toNat {c : CodeUnit} (h : ¬(0xD800 ≤ c.toNat ∧ c.toNat < 0xE000)) :
    (unitScalar c).toNat = c.toNat := by
  have hsurrogate : (isHigh c || isLow c) = false := by
    simp only [isHigh, isLow, Bool.or_eq_false_iff, Bool.and_eq_false_iff, decide_eq_false_iff_not]
    omega
  have hlt : c.toNat < 0x10000 := c.toNat_lt
  have hvalid : c.toNat.isValidChar := by
    unfold Nat.isValidChar
    omega
  rw [unitScalar, hsurrogate, if_neg Bool.false_ne_true, Char.ofNat, dif_pos hvalid]
  rfl

/-- Only the character itself is encoded with its ASCII byte. -/
theorem mem_utf8EncodeChar {b : UInt8} (hb : b.toNat < 0x80) (d : Char) :
    b ∈ String.utf8EncodeChar d ↔ d.toNat = b.toNat := by
  have hbyte {n : ℕ} (hn : n < 0x100) : b = n.toUInt8 ↔ b.toNat = n := by
    rw [← UInt8.toNat_inj, toUInt8_toNat n hn]
  have hd : d.val.toNat = d.toNat := rfl
  have hmax := (char_range d).1
  unfold String.utf8EncodeChar
  simp only [hd]
  split_ifs <;> simp only [List.mem_cons, List.not_mem_nil, or_false]
  · rw [hbyte (by omega)]
    omega
  all_goals
    simp only [Nat.toUInt8] at hbyte
    repeat rw [hbyte (by omega)]
    omega

/-- An ASCII character is one byte, whatever stands around it. -/
theorem encodeUtf8_append_cons (a : JsString) {c : CodeUnit} (h : c.toNat < 0x80) (b : JsString) :
    encodeUtf8 (a ++ c :: b) = encodeUtf8 a ++ c.toNat.toUInt8 :: encodeUtf8 b := by
  have hhigh : isHigh c = false := by
    simp only [isHigh, Bool.and_eq_false_iff, decide_eq_false_iff_not]
    omega
  have hlow : isLow c = false := by
    simp only [isLow, Bool.and_eq_false_iff, decide_eq_false_iff_not]
    omega
  have hscalar : (unitScalar c).val.toNat = c.toNat := unitScalar_toNat (by omega)
  have hchar : String.utf8EncodeChar (unitScalar c) = [c.toNat.toUInt8] := by
    unfold String.utf8EncodeChar
    simp only [hscalar]
    rw [if_pos (by omega)]
  rw [encodeUtf8, scalars_append a hlow, scalars_cons c b hhigh, List.flatMap_append, List.flatMap_cons, hchar]
  rfl

theorem mem_encodeUtf8 (c : CodeUnit) (h : c.toNat < 0x80) (s : JsString) :
    c.toNat.toUInt8 ∈ encodeUtf8 s ↔ c ∈ s := by
  have hb : c.toNat.toUInt8.toNat = c.toNat := toUInt8_toNat _ (by omega)
  have hmem (d : Char) : c.toNat.toUInt8 ∈ String.utf8EncodeChar d ↔ d.toNat = c.toNat := by
    rw [mem_utf8EncodeChar (by omega), hb]
  have hunit (d : CodeUnit) : (unitScalar d).toNat = c.toNat ↔ c = d := by
    rw [← UInt16.toNat_inj]
    by_cases hd : 0xD800 ≤ d.toNat ∧ d.toNat < 0xE000
    · have hreplaced : (unitScalar d).toNat = 0xFFFD := by
        have hsurrogate : (isHigh d || isLow d) = true := by
          simp only [isHigh, isLow, Bool.or_eq_true, Bool.and_eq_true, decide_eq_true_eq]
          omega
        rw [unitScalar, if_pos hsurrogate]
        rfl
      omega
    · rw [unitScalar_toNat hd]
      omega
  unfold encodeUtf8
  fun_induction scalars s with
  | case1 => exact iff_of_false List.not_mem_nil List.not_mem_nil
  | case2 d => rw [List.flatMap_singleton, hmem, hunit, List.mem_singleton]
  | case3 d e rest hpair ih =>
    -- the two halves of a pair are far from ASCII, and so is the character they make
    simp only [isHigh, isLow, Bool.and_eq_true, decide_eq_true_eq] at hpair
    have hvalid : (0x10000+(d.toNat-0xD800)*0x400+(e.toNat-0xDC00)).isValidChar := by
      unfold Nat.isValidChar
      omega
    have hfar : ¬(pairScalar d e).toNat = c.toNat := by
      have hpaired : (pairScalar d e).toNat = 0x10000+(d.toNat-0xD800)*0x400+(e.toNat-0xDC00) := by
        rw [pairScalar, Char.ofNat, dif_pos hvalid]
        rfl
      omega
    have hd : ¬c = d := fun hcd => by rw [hcd] at h; omega
    have he : ¬c = e := fun hce => by rw [hce] at h; omega
    rw [List.flatMap_cons, List.mem_append, hmem, List.mem_cons, List.mem_cons]
    exact or_congr (iff_of_false hfar hd) (ih.trans (or_iff_right he).symm)
  | case4 d e rest hpair ih =>
    rw [List.flatMap_cons, List.mem_append, hmem, hunit, List.mem_cons]
    exact or_congr_right ih

end Js

namespace Homelab
open Js LogQL

/-! ### The query that is meant -/

def labelMatcher (label : JsString) (value : Option JsString) : List Matcher :=
  match value with
  | some (c :: cs) => [⟨encodeUtf8 label, .equal, encodeUtf8 (c :: cs)⟩]
  | _ => []

/-- The matcher of every stream, for a query that names neither a resource nor a service -/
def anyJob : Matcher := ⟨encodeUtf8 (js "job"), .regex, encodeUtf8 (js ".+")⟩

def givenMatchers (q : LogQuery) (opts : LogsAdapterOptions) : List Matcher :=
  labelMatcher (opts.field (js "resource") (js "container")) q.resource ++
    labelMatcher (opts.field (js "service") (js "app")) q.service

def givenFilters (q : LogQuery) : List LineFilter :=
  match q.filter with
  | some (c :: cs) => [⟨.contains, encodeUtf8 (c :: cs)⟩]
  | _ => []

/-- One stream selector, whose matchers are the given values, and the given filter -/
def meantQuery (q : LogQuery) (opts : LogsAdapterOptions) : Query where
  matchers :=
    match givenMatchers q opts with
    | [] => [anyJob]
    | ms => ms
  filters := givenFilters q

/-- A name that LogQL reads as a label -/
structure LabelName (keywords : Keywords) (label : JsString) : Prop where
  isName : IsName (encodeUtf8 label)
  notKeyword : encodeUtf8 label ∉ keywords

/-- A field mapping of label names, in a LogQL that reserves none of the program's own names -/
structure ValidLabels (keywords : Keywords) (opts : LogsAdapterOptions) : Prop where
  mapped : ∀ {key label}, getOwn key opts.fieldMapping = .str label → LabelName keywords label
  unreserved : ∀ name ∈ [js "container", js "app", js "job"], encodeUtf8 name ∉ keywords

/-- What can stand between double quotes as it is: no quote, backslash, line break or NUL -/
def FitsQuotes (value : JsString) : Prop := ∀ c ∈ [0x22, 0x5C, 0x0A, 0], c ∉ value

/-- What can stand between back quotes -/
def FitsTicks (value : JsString) : Prop := ∀ c ∈ [0x60, 0], c ∉ value

structure Writable (q : LogQuery) : Prop where
  resource : ∀ v ∈ q.resource, FitsQuotes v
  service : ∀ v ∈ q.service, FitsQuotes v
  filter : ∀ v ∈ q.filter, FitsTicks v

/-! ### What is written -/

theorem labelMatcher_cases (label : JsString) (value : Option JsString) :
    (logSelector label value = [] ∧ labelMatcher label value = []) ∨
      ∃ v, value = some v ∧ logSelector label value = [label ++ js "=\"" ++ v ++ js "\""] ∧
        labelMatcher label value = [⟨encodeUtf8 label, .equal, encodeUtf8 v⟩] := by
  cases value with
  | none => exact .inl ⟨rfl, rfl⟩
  | some v =>
    cases v with
    | nil => exact .inl ⟨rfl, rfl⟩
    | cons c cs => exact .inr ⟨c :: cs, rfl, rfl, rfl⟩

theorem encodeUtf8_cons {c : CodeUnit} (h : c.toNat < 0x80) (b : JsString) :
    encodeUtf8 (c :: b) = c.toNat.toUInt8 :: encodeUtf8 b := encodeUtf8_append_cons [] h b

theorem encodeUtf8_label (label v rest : JsString) :
    encodeUtf8 (label ++ js "=\"" ++ v ++ js "\"" ++ rest) =
      Matcher.text ⟨encodeUtf8 label, .equal, encodeUtf8 v⟩ ++ encodeUtf8 rest := by
  have hsplit : label ++ js "=\"" ++ v ++ js "\"" ++ rest = label ++ 0x3D :: 0x22 :: (v ++ 0x22 :: rest) := by
    have heq : js "=\"" = [0x3D, 0x22] := rfl
    have hquote : js "\"" = [0x22] := rfl
    simp only [heq, hquote, List.append_assoc, List.cons_append, List.nil_append]
  rw [hsplit, encodeUtf8_append_cons _ (by decide), encodeUtf8_cons (by decide), encodeUtf8_append_cons _ (by decide)]
  simp only [Matcher.text, MatchOp.text, List.append_assoc, List.cons_append, List.nil_append]
  rfl

/-- The filter behind the selector, if there is one -/
def lineFilter (q : LogQuery) : JsString :=
  match q.filter with
  | some (c :: cs) => js " |= " ++ [0x60] ++ (c :: cs) ++ [0x60]
  | _ => []

theorem encodeUtf8_lineFilter (q : LogQuery) : encodeUtf8 (0x7D :: lineFilter q) = closeText (givenFilters q) := by
  rw [encodeUtf8_cons (by decide), lineFilter, givenFilters, closeText]
  refine congrArg₂ List.cons rfl ?_
  split
  · rename_i c cs _
    have hsplit : js " |= " ++ [0x60] ++ (c :: cs) ++ [0x60] =
        0x20 :: 0x7C :: 0x3D :: 0x20 :: 0x60 :: ((c :: cs) ++ 0x60 :: []) := by
      have hop : js " |= " = [0x20, 0x7C, 0x3D, 0x20] := rfl
      simp only [hop, List.cons_append, List.nil_append]
    rw [hsplit, encodeUtf8_cons (by decide), encodeUtf8_cons (by decide), encodeUtf8_cons (by decide),
      encodeUtf8_cons (by decide), encodeUtf8_cons (by decide), encodeUtf8_append_cons _ (by decide),
      List.flatMap_singleton]
    rfl
  · rfl

/-- What stands between the braces -/
def selectorBody : List JsString → JsString
  | [] => js "job=~\".+\""
  | parts => (js ", ").intercalate parts

theorem buildLogQL_eq (q : LogQuery) (opts : LogsAdapterOptions) :
    buildLogQL q opts =
      0x7B :: (selectorBody (logSelector (opts.field (js "resource") (js "container")) q.resource ++
        logSelector (opts.field (js "service") (js "app")) q.service) ++ 0x7D :: lineFilter q) := by
  have hclose : js "\x7d" = [0x7D] := rfl
  have hselector (parts : List JsString) :
      (if parts = [] then js "\x7bjob=~\".+\"\x7d" else js "\x7b" ++ (js ", ").intercalate parts ++ js "\x7d") =
        0x7B :: (selectorBody parts ++ [0x7D]) := by
    cases parts with
    | nil => rfl
    | cons part parts =>
      rw [if_neg (List.cons_ne_nil _ _), hclose]
      rfl
  simp only [buildLogQL, hselector, lineFilter]
  cases q.filter with
  | none => rfl
  | some v =>
    cases v with
    | nil => rfl
    | cons c cs => simp only [List.append_assoc, List.cons_append, List.nil_append]

/-- The values are put between quotes as they are. -/
theorem encodeUtf8_buildLogQL (q : LogQuery) (opts : LogsAdapterOptions) :
    encodeUtf8 (buildLogQL q opts) = (meantQuery q opts).text := by
  have hopen : (0x7B : CodeUnit).toNat < 0x80 := by decide
  have hfilters : encodeUtf8 (0x7D :: lineFilter q) = closeText (meantQuery q opts).filters :=
    encodeUtf8_lineFilter q
  rw [buildLogQL_eq, encodeUtf8_cons hopen, Query.text]
  refine congrArg₂ List.cons rfl ?_
  rw [← hfilters]
  obtain ⟨hr, hr'⟩ | ⟨v, -, hr, hr'⟩ :=
      labelMatcher_cases (opts.field (js "resource") (js "container")) q.resource <;>
    obtain ⟨hs, hs'⟩ | ⟨w, -, hs, hs'⟩ :=
      labelMatcher_cases (opts.field (js "service") (js "app")) q.service <;>
    simp only [meantQuery, givenMatchers, hr, hr', hs, hs', List.nil_append, List.append_nil, List.singleton_append,
      selectorBody, List.map_cons, List.map_nil, List.intercalate_singleton]
  · have hjob : encodeUtf8 (js "job=~\".+\"") = anyJob.text := by decide
    rw [encodeUtf8_append_cons _ (by decide), hjob, encodeUtf8_cons (by decide)]
  · exact encodeUtf8_label _ w _
  · exact encodeUtf8_label _ v _
  · have hjoin {α : Type} (a b : α) (p p' : List α) : [a, b].intercalate [p, p'] = p ++ a :: b :: p' := by
      rw [List.intercalate_cons_cons, List.intercalate_singleton, List.append_assoc]
      rfl
    have hcomma : js ", " = [0x2C, 0x20] := rfl
    rw [hcomma, hjoin, hjoin, List.append_assoc, encodeUtf8_label, List.cons_append, List.cons_append,
      encodeUtf8_cons (by decide), encodeUtf8_cons (by decide), encodeUtf8_label, List.append_assoc]
    rfl

/-! ### What is read -/

theorem fitsQuotes_iff (v : JsString) : FitsQuotes v ↔ Plain (encodeUtf8 v) ∧ 0 ∉ encodeUtf8 v := by
  have hquote : LogQL.quote ∈ encodeUtf8 v ↔ 0x22 ∈ v := mem_encodeUtf8 0x22 (by decide) v
  have hbackslash : backslash ∈ encodeUtf8 v ↔ 0x5C ∈ v := mem_encodeUtf8 0x5C (by decide) v
  have hnewline : newline ∈ encodeUtf8 v ↔ 0x0A ∈ v := mem_encodeUtf8 0x0A (by decide) v
  have hnul : 0 ∈ encodeUtf8 v ↔ 0 ∈ v := mem_encodeUtf8 0 (by decide) v
  rw [FitsQuotes, List.forall_mem_cons, List.forall_mem_cons, List.forall_mem_cons, List.forall_mem_singleton,
    ← hquote, ← hbackslash, ← hnewline, ← hnul]
  exact ⟨fun h => ⟨⟨h.1, h.2.1, h.2.2.1⟩, h.2.2.2⟩, fun h => ⟨h.1.1, h.1.2, h.1.3, h.2⟩⟩

theorem fitsTicks_iff (v : JsString) : FitsTicks v ↔ LogQL.tick ∉ encodeUtf8 v ∧ 0 ∉ encodeUtf8 v := by
  have htick : LogQL.tick ∈ encodeUtf8 v ↔ 0x60 ∈ v := mem_encodeUtf8 0x60 (by decide) v
  have hnul : 0 ∈ encodeUtf8 v ↔ 0 ∈ v := mem_encodeUtf8 0 (by decide) v
  rw [FitsTicks, List.forall_mem_cons, List.forall_mem_singleton, ← htick, ← hnul]

theorem labelMatcher_plain_iff (label : JsString) (value : Option JsString) :
    (∀ m ∈ labelMatcher label value, Plain m.value ∧ 0 ∉ m.value) ↔ ∀ v ∈ value, FitsQuotes v := by
  cases value with
  | none => exact iff_of_true nofun nofun
  | some v =>
    simp only [Option.mem_def, Option.some.injEq, forall_eq', fitsQuotes_iff]
    cases v with
    | nil => exact iff_of_true nofun ⟨⟨nofun, nofun, nofun⟩, nofun⟩
    | cons c cs => exact List.forall_mem_singleton

theorem givenFilters_plain_iff (q : LogQuery) :
    (∀ f ∈ givenFilters q, LogQL.tick ∉ f.value ∧ 0 ∉ f.value) ↔ ∀ v ∈ q.filter, FitsTicks v := by
  rw [givenFilters]
  cases q.filter with
  | none => exact iff_of_true nofun nofun
  | some v =>
    simp only [Option.mem_def, Option.some.injEq, forall_eq', fitsTicks_iff]
    cases v with
    | nil => exact iff_of_true nofun (by decide)
    | cons c cs => exact List.forall_mem_singleton

theorem ValidLabels.field {keywords : Keywords} {opts : LogsAdapterOptions} (h : ValidLabels keywords opts)
    (key : JsString) {normal : JsString} (hname : IsName (encodeUtf8 normal))
    (hkeyword : encodeUtf8 normal ∉ keywords) : LabelName keywords (opts.field key normal) := by
  unfold LogsAdapterOptions.field
  split
  · rename_i label hlabel
    exact h.mapped hlabel
  · exact ⟨hname, hkeyword⟩

theorem labelMatcher_label {keywords : Keywords} {label : JsString} (value : Option JsString)
    (h : LabelName keywords label) :
    (labelMatcher label value).length ≤ 1 ∧
      ∀ m ∈ labelMatcher label value, IsName m.name ∧ m.name ∉ keywords := by
  obtain ⟨-, hnone⟩ | ⟨v, -, -, hsome⟩ := labelMatcher_cases label value
  · rw [hnone]
    exact ⟨Nat.zero_le _, nofun⟩
  · rw [hsome]
    exact ⟨le_rfl, List.forall_mem_singleton.mpr ⟨h.isName, h.notKeyword⟩⟩

theorem givenMatchers_labels {keywords : Keywords} {opts : LogsAdapterOptions} (h : ValidLabels keywords opts)
    (q : LogQuery) :
    (givenMatchers q opts).length ≤ 2 ∧
      ∀ m ∈ givenMatchers q opts, IsName m.name ∧ m.name ∉ keywords := by
  have hunreserved := List.forall_mem_cons.mp h.unreserved
  have hcontainer : IsName (encodeUtf8 (js "container")) := by decide +kernel
  have happ : IsName (encodeUtf8 (js "app")) := by decide +kernel
  have hresource := labelMatcher_label q.resource (h.field (js "resource") hcontainer hunreserved.1)
  have hservice := labelMatcher_label q.service
    (h.field (js "service") happ (List.forall_mem_cons.mp hunreserved.2).1)
  rw [givenMatchers, List.length_append]
  exact ⟨by omega, List.forall_mem_append.mpr ⟨hresource.2, hservice.2⟩⟩

/-- Loki reads the query that is meant exactly if no value has a character that ends its quotation or
begins an escape. -/
theorem buildLogQL_parses_iff {keywords : Keywords} {opts : LogsAdapterOptions}
    (hvalid : ValidLabels keywords opts) (q : LogQuery) :
    parse keywords (encodeUtf8 (buildLogQL q opts)) = some (meantQuery q opts) ↔ Writable q := by
  have hgiven := givenMatchers_labels hvalid q
  have hplain : (∀ m ∈ givenMatchers q opts, Plain m.value ∧ 0 ∉ m.value) ↔
      (∀ v ∈ q.resource, FitsQuotes v) ∧ ∀ v ∈ q.service, FitsQuotes v := by
    rw [givenMatchers, List.forall_mem_append, labelMatcher_plain_iff, labelMatcher_plain_iff]
  have hfilters : (givenFilters q).length ≤ 1 := by
    unfold givenFilters
    split
    · exact le_rfl
    · exact Nat.zero_le _
  have hmatchers : (meantQuery q opts).matchers ≠ [] ∧ (meantQuery q opts).matchers.length ≤ 2 ∧
      (∀ m ∈ (meantQuery q opts).matchers, IsName m.name ∧ m.name ∉ keywords) ∧
      ((∀ m ∈ (meantQuery q opts).matchers, Plain m.value ∧ 0 ∉ m.value) ↔
        ∀ m ∈ givenMatchers q opts, Plain m.value ∧ 0 ∉ m.value) := by
    unfold meantQuery
    cases hms : givenMatchers q opts with
    | nil =>
      -- the selector that stands in for a query without labels
      have hjob : encodeUtf8 (js "job") ∉ keywords := hvalid.unreserved _ (by decide)
      have hname : IsName anyJob.name := by decide +kernel
      have hvalue : Plain anyJob.value ∧ 0 ∉ anyJob.value := ⟨⟨by decide, by decide, by decide⟩, by decide⟩
      exact ⟨List.cons_ne_nil _ _, Nat.le_succ _, List.forall_mem_singleton.mpr ⟨hname, hjob⟩,
        iff_of_true (List.forall_mem_singleton.mpr hvalue) nofun⟩
    | cons m ms =>
      rw [hms] at hgiven
      exact ⟨List.cons_ne_nil _ _, hgiven.1, hgiven.2, Iff.rfl⟩
  obtain ⟨hne, hlength, hnames, hvalues⟩ := hmatchers
  have hgivenFilters : (∀ f ∈ (meantQuery q opts).filters, LogQL.tick ∉ f.value ∧ 0 ∉ f.value) ↔
      ∀ v ∈ q.filter, FitsTicks v := givenFilters_plain_iff q
  rw [encodeUtf8_buildLogQL, parse_text_iff ⟨hne, hlength⟩ hfilters hnames, hvalues, hplain, hgivenFilters]
  exact ⟨fun h => ⟨h.1.1, h.1.2, h.2⟩, fun h => ⟨⟨h.resource, h.service⟩, h.filter⟩⟩

/-- Words that LogQL reserves -/
def reservedWords : Keywords :=
  ["by", "without", "on", "ignoring", "group_left", "group_right", "bool", "and", "or", "unless", "offset",
    "json", "logfmt", "regexp", "pattern", "unpack", "unwrap"].map fun word => encodeUtf8 (js word)

def podOptions : LogsAdapterOptions := ⟨none, none, [(js "resource", .str (js "pod"))]⟩

theorem podOptions_valid : ValidLabels reservedWords podOptions := by
  refine ⟨fun {key label} h => ?_, by decide⟩
  change (if js "resource" = key then JsValue.str (js "pod") else .undefined) = .str label at h
  split_ifs at h
  obtain rfl := JsValue.str.inj h
  exact ⟨by decide +kernel, by decide +kernel⟩

def resourceQuery (resource : JsString) : LogQuery := ⟨some resource, none, none, none, none, none⟩

theorem buildLogQL_parses_pod :
    parse reservedWords (encodeUtf8 (buildLogQL (resourceQuery (js "web-1")) podOptions)) =
      some (meantQuery (resourceQuery (js "web-1")) podOptions) := by
  refine (buildLogQL_parses_iff podOptions_valid _).mpr ⟨?_, nofun, nofun⟩
  intro v hv
  cases hv
  rw [FitsQuotes, List.forall_mem_cons, List.forall_mem_cons, List.forall_mem_cons, List.forall_mem_singleton]
  decide

/-- A container whose name closes its quotation adds a matcher of its own. -/
theorem buildLogQL_injects :
    ValidLabels reservedWords podOptions ∧
    parse reservedWords (encodeUtf8 (buildLogQL (resourceQuery (js "web\",app=\"db")) podOptions)) =
      some ⟨[⟨encodeUtf8 (js "pod"), .equal, encodeUtf8 (js "web")⟩,
        ⟨encodeUtf8 (js "app"), .equal, encodeUtf8 (js "db")⟩], []⟩ ∧
    ¬∀ q, parse reservedWords (encodeUtf8 (buildLogQL q podOptions)) = some (meantQuery q podOptions) := by
  have hreads : parse reservedWords (encodeUtf8 (buildLogQL (resourceQuery (js "web\",app=\"db")) podOptions)) =
      some ⟨[⟨encodeUtf8 (js "pod"), .equal, encodeUtf8 (js "web")⟩,
        ⟨encodeUtf8 (js "app"), .equal, encodeUtf8 (js "db")⟩], []⟩ := by decide +kernel
  refine ⟨podOptions_valid, hreads, fun h => ?_⟩
  have hmeant := Option.some.inj (hreads.symm.trans (h _))
  exact absurd hmeant (by decide)

end Homelab
