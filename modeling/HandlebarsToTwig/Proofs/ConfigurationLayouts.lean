import HandlebarsToTwig.Proofs.Configuration
import HandlebarsToTwig.Proofs.TomlReading

/-! Configuration files as they can be written. The table of a dialect has three spellings, and its
keys may come in any order; whichever way it is written, the same options are read. -/
namespace HandlebarsToTwig.Options
open Toml Overlay

/-- How the table of a dialect is written. -/
inductive Spelling
  /-- Under a header of its own, behind the depth limit. -/
  | header
  /-- Between braces, behind or in front of the depth limit. -/
  | inline (behind : Bool)
  /-- As keys with dots, so many of them in front of the depth limit. -/
  | dotted (above : Nat)
  deriving DecidableEq, Repr

/-- A configuration as it can be written: a depth limit, if one is given, and texts for any names in
the table of the dialect. -/
structure Layout where
  spelling : Spelling
  depth : Option Nat
  texts : List (Text × Text)
  limit : ∀ n ∈ depth, 1 ≤ n ∧ n ≤ 9223372036854775807
  distinct : (texts.map Prod.fst).Nodup

/-- A line with what it says. -/
abbrev Line := Statement × Text

namespace Line

def depth (n : Nat) : Line :=
  (.entry ⟨[], maxDepthName⟩ (.integer n), writeEntry ⟨[], maxDepthName⟩ (Error.decimal n))

def text (path : List Text) (e : Text × Text) : Line :=
  (.entry ⟨path, e.1⟩ (.text e.2), writeEntry ⟨path, e.1⟩ (Quoted.write e.2))

def table (es : List (Text × Text)) : Line :=
  (.entry ⟨[], dialectName⟩ (.table .inline (texts es)),
    writeEntry ⟨[], dialectName⟩ (writeTable es))

def header : Line := (.header ⟨[], dialectName⟩, writeHeader ⟨[], dialectName⟩)

theorem isLine_depth {n : Nat} (h : 1 ≤ n ∧ n ≤ 9223372036854775807) :
    IsLine (depth n).1 (depth n).2 := by
  have hn : n ≠ 0 := by omega
  apply isLine_entry
  · show 0 < nestingBound - 1
    decide
  · intro hmem
    exact absurd ((isDecimal_decimal hn).digits _ hmem) (by decide)
  · exact fun rest => skipGap_decimal hn ('\n' :: rest)
  · exact value_decimal_append _ hn h.2

theorem isLine_text {path : List Text} (h : path.length < nestingBound - 1) (e : Text × Text) :
    IsLine (text path e).1 (text path e).2 := by
  apply isLine_entry h (Quoted.cr_notMem_write e.2)
  · exact fun rest => skipGap_quoted e.2 ('\n' :: rest)
  · exact fun rest => value_write _ e.2 (by simp)

theorem isLine_table {es : List (Text × Text)} (h : (es.map Prod.fst).Nodup) :
    IsLine (table es).1 (table es).2 := by
  apply isLine_entry
  · show 0 < nestingBound - 1
    decide
  · exact cr_notMem_writeTable es
  · intro rest
    cases es <;> exact skipGap_cons (by decide) _
  · exact fun rest => value_writeTable _ h ('\n' :: rest)

end Line

namespace Layout

def lines (l : Layout) : List Line :=
  let depth := l.depth.toList.map Line.depth
  match l.spelling with
  | .header => depth ++ Line.header :: l.texts.map (Line.text [])
  | .inline true => depth ++ [Line.table l.texts]
  | .inline false => Line.table l.texts :: depth
  | .dotted above =>
    (l.texts.take above).map (Line.text [dialectName]) ++ depth ++
      (l.texts.drop above).map (Line.text [dialectName])

def source (l : Layout) : Text := l.lines.flatMap fun line => line.2 ++ ['\n']

end Layout

/-- What a table holds at the top of a configuration: a depth limit, the table of a dialect, and
nothing else. -/
def Holds (t : Table) (depth : Option Nat) (dialect : Option Value) : Prop :=
  ∀ key, t.get? key =
    if key = dialectName then dialect
    else if key = maxDepthName then depth.map fun n : Nat => .integer n
    else none

section

variable {t : Table} {depth : Option Nat} {dialect : Option Value}

theorem Holds.get?_dialect (h : Holds t depth dialect) : t.get? dialectName = dialect := by
  rw [h, if_pos rfl]

theorem Holds.get?_depth (h : Holds t depth dialect) :
    t.get? maxDepthName = depth.map fun n : Nat => .integer n := by
  rw [h, if_neg dialectName_ne_maxDepthName.symm, if_pos rfl]

theorem Holds.put_dialect (h : Holds t depth dialect) (v : Value) :
    Holds (t.put dialectName v) depth (some v) := by
  intro key
  rw [Table.get?_put, h key]
  split <;> rfl

theorem Holds.put_depth (h : Holds t depth dialect) (n : Nat) :
    Holds (t.put maxDepthName (.integer n)) (some n) dialect := by
  intro key
  rw [Table.get?_put, h key]
  by_cases hkey : key = maxDepthName
  · rw [if_pos hkey, if_pos hkey, if_neg (hkey ▸ dialectName_ne_maxDepthName.symm)]
    rfl
  · rw [if_neg hkey, if_neg hkey, if_neg hkey]

end

theorem holds_empty : Holds ⟨.declared, []⟩ none none := by
  intro key
  split
  · rfl
  split <;> rfl

/-- Where the reading of a configuration stands: under which header, and with what at the top. -/
structure Reached (d : Document) (current : List Text) (depth : Option Nat)
    (dialect : Option Value) : Prop where
  current : d.current = current
  root : Holds d.root depth dialect

/-- The table that keys with dots have made so far, if there were any. -/
def dottedTable : List (Text × Text) → Option Value
  | [] => none
  | e :: es => some (.table .dotted (texts (e :: es)))

section

variable {d : Document} {depth : Option Nat} {dialect : Option Value} {es : List (Text × Text)}

theorem add_new (hcurrent : d.current = []) {key : Text} (hnew : d.root.get? key = none)
    (v : Value) : d.add (.entry ⟨[], key⟩ v) = some { d with root := d.root.put key v } := by
  have hchange : d.root.change false (Table.addEntry [] key v) [] = some (d.root.put key v) :=
    Table.addEntry_new hnew v
  simp [Document.add, hcurrent, hchange]

theorem Reached.add_depth (h : Reached d [] none dialect) (n : Nat) :
    ∃ d', d.add (Line.depth n).1 = some d' ∧ Reached d' [] (some n) dialect :=
  ⟨_, add_new h.current h.root.get?_depth (.integer n), h.current, h.root.put_depth n⟩

theorem Reached.add_table (h : Reached d [] depth none) (es : List (Text × Text)) :
    ∃ d', d.add (Line.table es).1 = some d' ∧
      Reached d' [] depth (some (.table .inline (texts es))) :=
  ⟨_, add_new h.current h.root.get?_dialect _, h.current, h.root.put_dialect _⟩

theorem Reached.add_header {current : List Text} (h : Reached d current depth none) :
    ∃ d', d.add Line.header.1 = some d' ∧
      Reached d' [dialectName] depth (some (.table .declared [])) := by
  have hopen : d.root.openTable [] dialectName =
      some (d.root.put dialectName (.table .declared [])) := by
    simp [Table.openTable, Table.change, h.root.get?_dialect]
  refine ⟨⟨d.root.put dialectName (.table .declared []), [dialectName]⟩, ?_, rfl,
    h.root.put_dialect _⟩
  simp [Line.header, Document.add, hopen]

theorem get?_texts {origin : Origin} {name : Text} (h : name ∉ es.map Prod.fst) :
    (Table.mk origin (texts es)).get? name = none := by
  refine List.lookup_eq_none_iff.2 fun entry hentry => ?_
  obtain ⟨e, he, rfl⟩ := List.mem_map.1 hentry
  exact bne_iff_ne.2 fun hname => h (hname ▸ List.mem_map_of_mem he)

theorem addEntry_texts {origin : Origin} {e : Text × Text} (h : e.1 ∉ es.map Prod.fst) :
    Table.addEntry [] e.1 (.text e.2) ⟨origin, texts es⟩ = some ⟨origin, texts (es ++ [e])⟩ := by
  rw [Table.addEntry_new (get?_texts h), Table.put_of_get?_eq_none (get?_texts h)]
  simp [texts]

theorem Reached.add_text {e : Text × Text}
    (h : Reached d [dialectName] depth (some (.table .declared (texts es))))
    (he : e.1 ∉ es.map Prod.fst) :
    ∃ d', d.add (Line.text [] e).1 = some d' ∧
      Reached d' [dialectName] depth (some (.table .declared (texts (es ++ [e])))) := by
  let next : Value := .table .declared (texts (es ++ [e]))
  have hchange : d.root.change false (Table.addEntry [] e.1 (.text e.2)) [dialectName] =
      some (d.root.put dialectName next) :=
    Table.change_table h.root.get?_dialect (by simp) (addEntry_texts he)
  refine ⟨{ d with root := d.root.put dialectName next }, ?_, h.current, h.root.put_dialect next⟩
  simp [Line.text, Document.add, h.current, hchange]

theorem Reached.add_dotted {e : Text × Text} (h : Reached d [] depth (dottedTable es))
    (he : e.1 ∉ es.map Prod.fst) :
    ∃ d', d.add (Line.text [dialectName] e).1 = some d' ∧
      Reached d' [] depth (dottedTable (es ++ [e])) := by
  let next : Value := .table .dotted (texts (es ++ [e]))
  have hnext : dottedTable (es ++ [e]) = some next := by cases es <;> rfl
  have hdialect := h.root.get?_dialect
  have hentry : Table.addEntry [dialectName] e.1 (.text e.2) d.root =
      some (d.root.put dialectName next) := by
    cases es with
    | nil => exact Table.addEntry_dotted_new hdialect e.1 (.text e.2)
    | cons first es =>
      rw [Table.addEntry_dotted hdialect (get?_texts he)]
      simp [next, texts]
  have hchange : d.root.change false (Table.addEntry [dialectName] e.1 (.text e.2)) [] =
      some (d.root.put dialectName next) := hentry
  refine ⟨{ d with root := d.root.put dialectName next }, ?_, h.current,
    hnext ▸ h.root.put_dialect next⟩
  simp [Line.text, Document.add, h.current, hchange]

/-- A run of lines with texts under new names, if one such line keeps track of the names. -/
theorem foldlM_add_texts (P : Document → List (Text × Text) → Prop) {path : List Text}
    (hstep : ∀ d es e, P d es → e.1 ∉ es.map Prod.fst →
      ∃ d', d.add (Line.text path e).1 = some d' ∧ P d' (es ++ [e]))
    (front es : List (Text × Text)) (h : P d front)
    (hkeys : ((front ++ es).map Prod.fst).Nodup) :
    ∃ d', ((es.map (Line.text path)).map Prod.fst).foldlM Document.add d = some d' ∧
      P d' (front ++ es) := by
  induction es generalizing d front with
  | nil => exact ⟨d, rfl, by simpa using h⟩
  | cons e es ih =>
    have he : e.1 ∉ front.map Prod.fst := by
      rw [List.map_append, List.map_cons, List.nodup_append] at hkeys
      intro hmem
      exact hkeys.2.2 _ hmem _ List.mem_cons_self rfl
    obtain ⟨d₁, hadd, h₁⟩ := hstep d front e h he
    have hsplit : front ++ e :: es = front ++ [e] ++ es := by simp
    rw [hsplit] at hkeys ⊢
    obtain ⟨d', hrun, h'⟩ := ih (front ++ [e]) h₁ hkeys
    refine ⟨d', ?_, h'⟩
    rw [List.map_cons, List.map_cons, List.foldlM_cons, hadd]
    exact hrun

theorem Reached.add_texts (h : Reached d [dialectName] depth (some (.table .declared [])))
    (es : List (Text × Text)) (hkeys : (es.map Prod.fst).Nodup) :
    ∃ d', ((es.map (Line.text [])).map Prod.fst).foldlM Document.add d = some d' ∧
      Reached d' [dialectName] depth (some (.table .declared (texts es))) :=
  foldlM_add_texts
    (fun d es => Reached d [dialectName] depth (some (.table .declared (texts es))))
    (fun _ _ _ h he => h.add_text he) [] es h hkeys

theorem Reached.add_dotted_texts (front es : List (Text × Text))
    (h : Reached d [] depth (dottedTable front))
    (hkeys : ((front ++ es).map Prod.fst).Nodup) :
    ∃ d', ((es.map (Line.text [dialectName])).map Prod.fst).foldlM Document.add d = some d' ∧
      Reached d' [] depth (dottedTable (front ++ es)) :=
  foldlM_add_texts (fun d es => Reached d [] depth (dottedTable es))
    (fun _ _ _ h he => h.add_dotted he) front es h hkeys

theorem Reached.add_limit (h : Reached d [] none dialect) (depth : Option Nat) :
    ∃ d', ((depth.toList.map Line.depth).map Prod.fst).foldlM Document.add d = some d' ∧
      Reached d' [] depth dialect := by
  cases depth with
  | none => exact ⟨d, rfl, h⟩
  | some n =>
    obtain ⟨d', hadd, h'⟩ := h.add_depth n
    exact ⟨d', by simp [hadd], h'⟩

end

namespace Layout

/-- The table that a layout makes, if it makes one. -/
def table? (l : Layout) : Option Value :=
  match l.spelling with
  | .header => some (.table .declared (Toml.texts l.texts))
  | .inline _ => some (.table .inline (Toml.texts l.texts))
  | .dotted _ => dottedTable l.texts

theorem isLine_of_mem_lines {l : Layout} {line : Line} (h : line ∈ l.lines) :
    IsLine line.1 line.2 := by
  have hdepth : ∀ line ∈ l.depth.toList.map Line.depth, IsLine line.1 line.2 := by
    rw [List.forall_mem_map]
    intro n hn
    exact Line.isLine_depth (l.limit n (Option.mem_toList.1 hn))
  have htexts (path : List Text) (hpath : path.length < nestingBound - 1)
      (es : List (Text × Text)) : ∀ line ∈ es.map (Line.text path), IsLine line.1 line.2 := by
    rw [List.forall_mem_map]
    exact fun e _ => Line.isLine_text hpath e
  have htable : ∀ line ∈ [Line.table l.texts], IsLine line.1 line.2 := by
    rw [List.forall_mem_singleton]
    exact Line.isLine_table l.distinct
  have hheader : IsLine Line.header.1 Line.header.2 :=
    isLine_header (by decide : 0 < nestingBound - 1)
  revert line
  unfold lines
  dsimp only
  split
  · rw [List.forall_mem_append, List.forall_mem_cons]
    exact ⟨hdepth, hheader, htexts [] (by decide) l.texts⟩
  · rw [List.forall_mem_append]
    exact ⟨hdepth, htable⟩
  · rw [← List.singleton_append, List.forall_mem_append]
    exact ⟨htable, hdepth⟩
  · next above _ =>
    rw [List.forall_mem_append, List.forall_mem_append]
    exact ⟨⟨htexts [dialectName] (by decide) (l.texts.take above), hdepth⟩,
      htexts [dialectName] (by decide) (l.texts.drop above)⟩

theorem foldlM_add_lines (l : Layout) :
    ∃ d current, (l.lines.map Prod.fst).foldlM Document.add {} = some d ∧
      Reached d current l.depth l.table? := by
  have hstart : Reached {} [] none none := ⟨rfl, holds_empty⟩
  obtain ⟨spelling, depth, texts, -, hdistinct⟩ := l
  cases spelling with
  | header =>
    obtain ⟨d₁, hdepth, h₁⟩ := hstart.add_limit depth
    obtain ⟨d₂, hheader, h₂⟩ := h₁.add_header
    obtain ⟨d₃, htexts, h₃⟩ := h₂.add_texts texts hdistinct
    refine ⟨d₃, [dialectName], ?_, h₃⟩
    simp only [lines, List.map_append, List.map_cons, List.foldlM_append, List.foldlM_cons, hdepth,
      hheader, htexts, Option.bind_eq_bind, Option.bind_some]
  | inline behind =>
    cases behind with
    | true =>
      obtain ⟨d₁, hdepth, h₁⟩ := hstart.add_limit depth
      obtain ⟨d₂, htable, h₂⟩ := h₁.add_table texts
      refine ⟨d₂, [], ?_, h₂⟩
      simp only [lines, List.map_append, List.map_cons, List.map_nil, List.foldlM_append,
        List.foldlM_cons, List.foldlM_nil, hdepth, htable, Option.bind_eq_bind, Option.bind_some]
      rfl
    | false =>
      obtain ⟨d₁, htable, h₁⟩ := hstart.add_table texts
      obtain ⟨d₂, hdepth, h₂⟩ := h₁.add_limit depth
      refine ⟨d₂, [], ?_, h₂⟩
      simp only [lines, List.map_cons, List.foldlM_cons, htable, hdepth, Option.bind_eq_bind,
        Option.bind_some]
  | dotted above =>
    have hkeys : ((texts.take above ++ texts.drop above).map Prod.fst).Nodup := by
      rwa [List.take_append_drop]
    have hfront : ((texts.take above).map Prod.fst).Nodup := by
      rw [List.map_append] at hkeys
      exact hkeys.of_append_left
    obtain ⟨d₁, habove, h₁⟩ := Reached.add_dotted_texts [] (texts.take above) hstart hfront
    obtain ⟨d₂, hdepth, h₂⟩ := h₁.add_limit depth
    obtain ⟨d₃, hbelow, h₃⟩ :=
      Reached.add_dotted_texts (texts.take above) (texts.drop above) h₂ hkeys
    rw [List.take_append_drop] at h₃
    refine ⟨d₃, [], ?_, h₃⟩
    simp only [lines, List.map_append, List.foldlM_append, habove, hdepth, hbelow,
      Option.bind_eq_bind, Option.bind_some]

theorem read_source (l : Layout) :
    ∃ doc origin, Toml.read l.source = some doc ∧ Holds ⟨origin, doc⟩ l.depth l.table? := by
  obtain ⟨d, current, hrun, h⟩ := l.foldlM_add_lines
  refine ⟨d.root.entries, d.root.origin, ?_, h.root⟩
  rw [source, read_lines fun line hline => isLine_of_mem_lines hline, Document.ofStatements, hrun]
  rfl

theorem lookup_texts (es : List (Text × Text)) (name : Text) :
    (Toml.texts es).lookup name = (es.lookup name).map .text := by
  induction es with
  | nil => rfl
  | cons e es ih =>
    have hcons : Toml.texts (e :: es) = (e.1, .text e.2) :: Toml.texts es := rfl
    rw [hcons, List.lookup_cons, List.lookup_cons, ih]
    cases name == e.1 <;> rfl

theorem table_of_table? {l : Layout} {v : Value} (h : l.table? = some v) :
    ∃ origin, v = .table origin (Toml.texts l.texts) := by
  obtain ⟨spelling, depth, texts, limit, distinct⟩ := l
  cases spelling with
  | header => exact ⟨.declared, (Option.some.inj h).symm⟩
  | inline behind => exact ⟨.inline, (Option.some.inj h).symm⟩
  | dotted above =>
    cases texts with
    | nil => cases h
    | cons e es => exact ⟨.dotted, (Option.some.inj h).symm⟩

theorem field?_table? (l : Layout) (i : Nat) (name : Text) :
    l.table?.bind (·.field? i name) = (l.texts.lookup name).map .text := by
  obtain ⟨spelling, depth, texts, limit, distinct⟩ := l
  cases spelling with
  | header => exact lookup_texts texts name
  | inline behind => exact lookup_texts texts name
  | dotted above =>
    cases texts with
    | nil => rfl
    | cons e es => exact lookup_texts (e :: es) name

theorem lookup_of_mem {doc : Entries} (hkeys : (doc.map Prod.fst).Nodup) {e : Text × Value}
    (he : e ∈ doc) : doc.lookup e.1 = some e.2 := by
  obtain ⟨l₁, l₂, rfl⟩ := List.append_of_mem he
  refine List.lookup_eq_some_iff.2 ⟨l₁, l₂, rfl, fun p hp => ?_⟩
  rw [List.map_append, List.map_cons, List.nodup_append] at hkeys
  exact bne_iff_ne.2 (hkeys.2.2 p.1 (List.mem_map_of_mem hp) e.1 List.mem_cons_self).symm

theorem admissible_of_holds {l : Layout} {doc : Entries} (hkeys : (doc.map Prod.fst).Nodup)
    {origin : Origin} (h : Holds ⟨origin, doc⟩ l.depth l.table?) : ∀ e ∈ doc, Admissible e := by
  rintro ⟨key, v⟩ he
  have hlookup : doc.lookup key = some v := lookup_of_mem hkeys he
  have hget := h key
  rw [Table.get?, hlookup] at hget
  split at hget
  · next hkey =>
    obtain ⟨_, rfl⟩ := table_of_table? hget.symm
    subst hkey
    apply Admissible.dialect
    intro field _ v hv
    rw [lookup_texts] at hv
    obtain ⟨s, -, rfl⟩ := Option.map_eq_some_iff.1 hv
    exact ⟨s, rfl⟩
  split at hget
  · next hkey =>
    obtain ⟨n, hn, rfl⟩ := Option.map_eq_some_iff.1 hget.symm
    subst hkey
    have := (l.limit n hn).1
    exact .depth (by omega)
  · cases hget

end Layout

/-- A configuration file is an overlay on the defaults. If it gives options, its only keys are those
of a dialect and of a depth limit, the limit is positive and has 63 bits, and every field is what
the file gives for it, or else the default. And it gives options whenever its keys are among these,
the fields of its dialect are texts, and its limit is positive; keys that name no field of a dialect
do not matter. So it does if it is written in any of the layouts: then the fields are the texts that
stand there under their names. -/
theorem ofToml_overlays (source : Text) :
    (∀ o, ofToml source = .ok o → ∃ doc, Toml.read source = some doc ∧ Overlays doc o) ∧
    (∀ doc, Toml.read source = some doc → (∀ e ∈ doc, Admissible e) →
      ∃ o, ofToml source = .ok o) ∧
    ∀ l : Layout, l.source = source →
      ∃ o, ofToml source = .ok o ∧ o.maxDepth = l.depth.getD defaultMaxDepth ∧
        ∀ field ∈ Dialect.fields,
          field.2 o.dialect = (l.texts.lookup field.1).getD (field.2 {}) := by
  refine ⟨fun o => exists_overlays_of_ofToml, fun doc hdoc h => ?_, ?_⟩
  · obtain ⟨o, ho, -⟩ := exists_ofToml_of_admissible hdoc h
    exact ⟨o, ho⟩
  · rintro l rfl
    obtain ⟨doc, origin, hdoc, hholds⟩ := l.read_source
    have hadmissible := Layout.admissible_of_holds (read_wellFormed hdoc).1 hholds
    obtain ⟨o, ho, hoverlays⟩ := exists_ofToml_of_admissible hdoc hadmissible
    have hdepth : doc.lookup maxDepthName = l.depth.map fun n : Nat => .integer n :=
      hholds.get?_depth
    have hdialect : doc.lookup dialectName = l.table? := hholds.get?_dialect
    refine ⟨o, ho, ?_, fun field hfield => ?_⟩
    · have h := hoverlays.depth
      rw [hdepth] at h
      cases hl : l.depth with
      | none =>
        rw [hl] at h
        exact Int.ofNat.inj (Value.integer.inj h)
      | some n =>
        rw [hl] at h
        exact Int.ofNat.inj (Value.integer.inj h)
    · obtain ⟨i, hi⟩ := List.mem_iff_getElem?.1 hfield
      have h := hoverlays.texts i field.1 field.2 hi
      rw [hdialect, Layout.field?_table?, Option.getD_map] at h
      exact Value.text.inj h

/-- The layouts of one overlay, which has a name that is no field of a dialect. -/
theorem ofToml_overlays_spellings :
    let texts : List (Text × Text) :=
      [("loop_index".toList, "loop.index".toList), ("a b".toList, "\"\n".toList)]
    let layout (spelling : Spelling) : Layout := ⟨spelling, some 8, texts, by decide, by decide⟩
    (∀ written ∈
      [(Spelling.header, "max_depth = 8\n[syntax]\nloop_index = \"loop.index\"\n" ++
          "\"a b\" = \"\\\"\\u000a\"\n"),
        (.inline true, "max_depth = 8\nsyntax = \x7b loop_index = \"loop.index\", " ++
          "\"a b\" = \"\\\"\\u000a\" \x7d\n"),
        (.dotted 1, "syntax.loop_index = \"loop.index\"\nmax_depth = 8\n" ++
          "syntax.\"a b\" = \"\\\"\\u000a\"\n")],
      (layout written.1).source = written.2.toList) ∧
    ∀ spelling, ∃ o, ofToml (layout spelling).source = .ok o ∧ o.maxDepth = 8 ∧
      o.dialect = { loopIndex := "loop.index".toList } := by
  intro texts layout
  refine ⟨by decide +kernel, fun spelling => ?_⟩
  obtain ⟨o, ho, hdepth, hfields⟩ := (ofToml_overlays _).2.2 (layout spelling) rfl
  refine ⟨o, ho, hdepth, ?_⟩
  simp only [Dialect.fields, List.forall_mem_cons] at hfields
  obtain ⟨hvarOpen, hvarClose, hblockOpen, hblockClose, hloopIndex, -⟩ := hfields
  show Dialect.mk o.dialect.varOpen o.dialect.varClose o.dialect.blockOpen o.dialect.blockClose
    o.dialect.loopIndex = _
  rw [hvarOpen, hvarClose, hblockOpen, hblockClose, hloopIndex]
  dsimp only [layout]
  decide +kernel

end HandlebarsToTwig.Options
