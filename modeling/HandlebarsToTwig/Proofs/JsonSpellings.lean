import HandlebarsToTwig.Proofs.JsonValues
import HandlebarsToTwig.Proofs.RoundTrip
import HandlebarsToTwig.Proofs.TreeConversion

/-! The texts that describe one and the same tree. Fields come in any order or by position, types
have two names, absent fields may be `null`, and unknown keys stand anywhere with any value behind
them. All of these texts are read as the tree. -/
namespace HandlebarsToTwig
open Json

namespace Json

theorem Quoted.Spells.isItem {s w : Text} (h : Quoted.Spells s w) : IsItem w := by
  obtain ⟨pieces, -, rfl⟩ := h
  exact ⟨'"', _, rfl, by decide, by decide⟩

/-- The text of a string, or `null` where there is none. -/
def SpellsOptional : Option Text → Text → Prop
  | none, w => w = "null".toList
  | some s, w => Quoted.Spells s w

theorem SpellsOptional.isItem {o : Option Text} {w : Text} (h : SpellsOptional o w) : IsItem w := by
  cases o with
  | some s => exact Quoted.Spells.isItem h
  | none =>
    obtain rfl : w = "null".toList := h
    exact ⟨'n', _, rfl, by decide, by decide⟩

theorem text?_takes_optional {o : Option Text} {w : Text} (hw : SpellsOptional o w) {g : Text}
    (hg : IsGap g) : Takes text? (g ++ w) (.ok o) := by
  cases o with
  | some s => exact text?_takes hw hg
  | none =>
    intro rest
    obtain rfl : w = "null".toList := hw
    have hs : g ++ "null".toList ++ rest = g ++ 'n' :: ("ull".toList ++ rest) := by simp
    rw [hs, text?, skipGap_append hg (by decide)]
    rfl

end Json

namespace Node

/-- What a record has to say about a node, field by field. -/
def types : Node → List Text
  | .text _ => NodeRecord.textTypes
  | .reference _ => NodeRecord.referenceTypes
  | .block .. => NodeRecord.blockTypes

def value? : Node → Option Text
  | .text value => some value
  | _ => none

def name? : Node → Option Text
  | .text _ => none
  | .reference name => some name
  | .block kind .. => some kind.name

def args? : Node → Option Text
  | .block _ args _ => args
  | _ => none

def nodes : Node → List Node
  | .block _ _ children => children
  | _ => []

/-- What holds of a node if it holds of the nodes inside of it, holds of all. -/
theorem nodesInduction {P : Node → Prop} (step : ∀ n, (∀ c ∈ n.nodes, P c) → P n) (n : Node) :
    P n := by
  have hall : ∀ tree : List Node, ∀ n ∈ tree, P n := by
    intro tree
    induction tree using Node.listInduction with
    | nil => simp
    | text value ns ih => exact List.forall_mem_cons.2 ⟨step _ (by simp [nodes]), ih⟩
    | reference name ns ih => exact List.forall_mem_cons.2 ⟨step _ (by simp [nodes]), ih⟩
    | block kind args children ns ihc ihn => exact List.forall_mem_cons.2 ⟨step _ ihc, ihn⟩
  exact hall [n] n List.mem_cons_self

end Node

namespace NodeRecord

inductive Field
  | type
  | value
  | name
  | args
  | nodes
  deriving DecidableEq, Repr

namespace Field

/-- The fields in the order in which a list holds them. -/
def all : List Field := [type, value, name, args, nodes]

def key : Field → Text
  | type => "type".toList
  | value => "value".toList
  | name => "name".toList
  | args => "args".toList
  | nodes => "nodes".toList

def filled : Field → Draft → Bool
  | type, d => d.type.isSome
  | value, d => d.value.isSome
  | name, d => d.name.isSome
  | args, d => d.args.isSome
  | nodes, d => d.nodes.isSome

/-- The record of the node is not complete without the field. -/
def Needed (n : Node) : Field → Prop
  | type => True
  | value => n.value? ≠ none
  | name => n.name? ≠ none
  | args => n.args? ≠ none
  | nodes => n.nodes ≠ []

/-- The text says what the field has to say about the node, where `inside` are the texts for the
list of its nodes. -/
def Says (n : Node) (inside : Text → Prop) : Field → Text → Prop
  | type, w => ∃ s ∈ n.types, Quoted.Spells s w
  | value, w => SpellsOptional n.value? w
  | name, w => SpellsOptional n.name? w
  | args, w => SpellsOptional n.args? w
  | nodes, w => inside w

def slot (children : Reader (List NodeRecord)) : Field → Slot Draft
  | type => Slot.of type.key Draft.type (fun d s => { d with type := some s }) text false
  | value => Slot.of value.key Draft.value (fun d s => { d with value := some s }) text? false
  | name => Slot.of name.key Draft.name (fun d s => { d with name := some s }) text? false
  | args => Slot.of args.key Draft.args (fun d s => { d with args := some s }) text? false
  | nodes => Slot.of nodes.key Draft.nodes (fun d ns => { d with nodes := some ns }) children true

theorem slots_eq (children : Reader (List NodeRecord)) :
    Draft.slots children = all.map (slot children) := rfl

theorem mem_all (f : Field) : f ∈ all := by cases f <;> decide

theorem find?_key (children : Reader (List NodeRecord)) (f : Field) :
    (Draft.slots children).find? (·.name = f.key) = some (f.slot children) := by
  cases f <;> rfl

theorem find?_unknown (children : Reader (List NodeRecord)) {key : Text}
    (h : ∀ f : Field, f.key ≠ key) : (Draft.slots children).find? (·.name = key) = none := by
  have hname : ∀ f : Field, (f.slot children).name = f.key := by
    intro f
    cases f <;> rfl
  rw [slots_eq, List.find?_map, Option.map_eq_none_iff, List.find?_eq_none]
  intro f _
  simpa [hname] using h f

theorem slot_filled (children : Reader (List NodeRecord)) (f : Field) :
    (f.slot children).filled = f.filled := by
  cases f <;> rfl

end Field

/-- The piece of an object for one of its own fields, or for a key that no field has. -/
def IsEntry (n : Node) (inside : Text → Prop) : Option Field × Text → Prop
  | (some f, p) => ∃ gap w, IsGap gap ∧ f.Says n inside w ∧ IsField f.key (gap ++ w) p
  | (none, p) => ∃ key gap w, (∀ f : Field, f.key ≠ key) ∧ IsGap gap ∧ IsValue w ∧
    IsField key (gap ++ w) p

/-- The fields that an object gives. -/
def owned (entries : List (Option Field × Text)) : List Field := entries.filterMap Prod.fst

theorem owned_none (p : Text) (entries : List (Option Field × Text)) :
    owned ((none, p) :: entries) = owned entries := rfl

theorem owned_some (f : Field) (p : Text) (entries : List (Option Field × Text)) :
    owned ((some f, p) :: entries) = f :: owned entries := rfl

/-- An object that describes the node: the fields that are needed and perhaps others, each of them
once, and any number of other keys, in any order. -/
def IsObject (n : Node) (inside : Text → Prop) (w : Text) : Prop :=
  ∃ entries : List (Option Field × Text), (∀ e ∈ entries, IsEntry n inside e) ∧
    (owned entries).Nodup ∧ (∀ f : Field, f.Needed n → f ∈ owned entries) ∧
    Enclosed '{' (entries.map Prod.snd) '}' w

/-- A list that describes the node: all fields by position, but an empty list of nodes may be
missing at the end. -/
def IsPositional (n : Node) (inside : Text → Prop) (w : Text) : Prop :=
  ∃ fields texts, (fields = Field.all ∨ n.nodes = [] ∧ fields = Field.all.dropLast) ∧
    List.Forall₂ (Field.Says n inside) fields texts ∧ Enclosed '[' texts ']' w

/-- A record that describes the node. -/
def IsRecord (n : Node) (inside : Text → Prop) (w : Text) : Prop :=
  IsObject n inside w ∨ IsPositional n inside w

namespace Draft

/-- As far as the draft has been filled, it describes the node. -/
structure Describes (d : Draft) (n : Node) : Prop where
  type : ∀ s ∈ d.type, s ∈ n.types
  value : ∀ s ∈ d.value, s = n.value?
  name : ∀ s ∈ d.name, s = n.name?
  args : ∀ s ∈ d.args, s = n.args?
  nodes : ∀ rs ∈ d.nodes, toNodes rs = .ok n.nodes

theorem describes_empty (n : Node) : Describes {} n := by
  constructor <;> nofun

theorem join_eq {o : Option (Option Text)} {s : Option Text} (h : ∀ t ∈ o, t = s)
    (hsome : s ≠ none → o.isSome = true) : o.join = s := by
  cases o with
  | none => cases s <;> simp_all
  | some t => simpa using h t rfl

/-- A draft with all the needed fields is completed to a record of the node. -/
theorem Describes.complete {d : Draft} {n : Node} (h : d.Describes n)
    (hneeded : ∀ f : Field, f.Needed n → f.filled d = true) :
    ∃ r, d.complete = some r ∧ toNode r = .ok n := by
  obtain ⟨type, htype⟩ := Option.isSome_iff_exists.1 (hneeded .type trivial)
  have hspelled := h.type type htype
  have hnodes : toNodes (d.nodes.getD []) = .ok n.nodes := by
    cases hd : d.nodes with
    | some rs => exact h.nodes rs hd
    | none =>
      have hempty : n.nodes = [] := by
        by_contra hne
        simpa [Field.filled, hd] using hneeded .nodes hne
      rw [hempty]
      rfl
  refine ⟨.mk type d.value.join d.name.join d.args.join (d.nodes.getD []), ?_, ?_⟩
  · rw [Draft.complete, htype]
    rfl
  · rw [join_eq h.value (hneeded .value), join_eq h.name (hneeded .name),
      join_eq h.args (hneeded .args)]
    cases n with
    | text value =>
      rw [toNode_of_text _ _ _ _ hspelled]
      rfl
    | reference name =>
      rw [toNode_of_reference _ _ _ _ hspelled]
      rfl
    | block kind args children =>
      simp only [toNode_of_block _ _ _ _ hspelled, hnodes, Node.name?, required, bind, Except.bind,
        BlockKind.ofName?_eq_some.2 rfl]
      rfl

end Draft

/-- The reader takes the text for the nodes, or for records of them. -/
def Conveys (children : Reader (List NodeRecord)) (ns : List Node) (w : Text) : Prop :=
  IsItem w ∧ ∃ rs, toNodes rs = .ok ns ∧ ∀ gap, IsGap gap → Takes children (gap ++ w) (.ok rs)

section

variable {n : Node} {inside : Text → Prop} {children : Reader (List NodeRecord)}

theorem Field.isItem (hinside : ∀ w, inside w → Conveys children n.nodes w) {f : Field} {w : Text}
    (hw : f.Says n inside w) : IsItem w := by
  cases f with
  | type =>
    obtain ⟨s, -, hs⟩ := hw
    exact hs.isItem
  | value | name | args => exact SpellsOptional.isItem hw
  | nodes => exact (hinside w hw).1

/-- Whatever the draft holds already, a text that says what a field has to say fills that field, and
the draft still describes the node. -/
theorem Field.fill_takes (hinside : ∀ w, inside w → Conveys children n.nodes w) {f : Field}
    {w gap : Text} (hw : f.Says n inside w) (hgap : IsGap gap) {d : Draft} (hd : d.Describes n) :
    ∃ next, Takes ((f.slot children).fill d) (gap ++ w) (.ok next) ∧ next.Describes n ∧
      ∀ other : Field, other.filled next = (decide (other = f) || other.filled d) := by
  unfold slot
  cases f with
  | type =>
    obtain ⟨s, hs, hw⟩ := hw
    refine ⟨{ d with type := some s }, Slot.of_takes (text_takes hw hgap) d,
      { hd with type := by simpa using hs }, fun other => ?_⟩
    cases other <;> simp [filled]
  | value =>
    refine ⟨{ d with value := some n.value? }, Slot.of_takes (text?_takes_optional hw hgap) d,
      { hd with value := by simp }, fun other => ?_⟩
    cases other <;> simp [filled]
  | name =>
    refine ⟨{ d with name := some n.name? }, Slot.of_takes (text?_takes_optional hw hgap) d,
      { hd with name := by simp }, fun other => ?_⟩
    cases other <;> simp [filled]
  | args =>
    refine ⟨{ d with args := some n.args? }, Slot.of_takes (text?_takes_optional hw hgap) d,
      { hd with args := by simp }, fun other => ?_⟩
    cases other <;> simp [filled]
  | nodes =>
    obtain ⟨-, rs, hrs, htake⟩ := hinside w hw
    refine ⟨{ d with nodes := some rs }, Slot.of_takes (htake gap hgap) d,
      { hd with nodes := by simpa using hrs }, fun other => ?_⟩
    cases other <;> simp [filled]

/-- The entries of an object fill the draft one after the other. -/
theorem fills_entries (hinside : ∀ w, inside w → Conveys children n.nodes w)
    {entries : List (Option Field × Text)} (hentry : ∀ e ∈ entries, IsEntry n inside e)
    (hnodup : (owned entries).Nodup) {d : Draft} (hd : d.Describes n)
    (hfree : ∀ f ∈ owned entries, f.filled d = false) :
    ∃ last, Fills (Draft.slots children) false d (entries.map Prod.snd) (.ok last) ∧
      last.Describes n ∧
      ∀ f : Field, f.filled d = true ∨ f ∈ owned entries → f.filled last = true := by
  induction entries generalizing d with
  | nil => exact ⟨d, .done d, hd, by simp [owned]⟩
  | cons e entries ih =>
    obtain ⟨he, hentries⟩ := List.forall_mem_cons.1 hentry
    obtain ⟨owner, p⟩ := e
    cases owner with
    | none =>
      rw [owned_none] at hnodup hfree ⊢
      obtain ⟨key, gap, w, hkey, hgap, hw, hp⟩ := he
      obtain ⟨last, hfill, hlast⟩ := ih hentries hnodup hd hfree
      refine ⟨last, .skip rfl hp (Field.find?_unknown children hkey) ?_ hfill, hlast⟩
      exact fun rest hrest => skipValue_append hw hgap hrest
    | some f =>
      rw [owned_some, List.nodup_cons] at hnodup
      rw [owned_some, List.forall_mem_cons] at hfree
      obtain ⟨gap, w, hgap, hw, hp⟩ := he
      obtain ⟨next, htake, hnext, hfilled⟩ := Field.fill_takes hinside hw hgap hd
      have hstill : ∀ other ∈ owned entries, other.filled next = false := by
        intro other hother
        have hne : other ≠ f := by
          rintro rfl
          exact hnodup.1 hother
        simp [hfilled, hne, hfree.2 other hother]
      obtain ⟨last, hfill, hdescribes, hlast⟩ := ih hentries hnodup.2 hnext hstill
      refine ⟨last, .step hp (Field.find?_key children f) ?_ htake hfill, hdescribes, ?_⟩
      · rw [Field.slot_filled]
        exact hfree.1
      · intro other hother
        apply hlast
        rw [owned_some, List.mem_cons] at hother
        simp only [hfilled, Bool.or_eq_true, decide_eq_true_eq]
        tauto

/-- The items of a list fill the draft in order. -/
theorem fills_texts (hinside : ∀ w, inside w → Conveys children n.nodes w)
    {fields more : List Field} {texts : List Text}
    (htext : List.Forall₂ (Field.Says n inside) fields texts)
    (hmore : ∀ f ∈ more, f = .nodes) {d : Draft} (hd : d.Describes n) :
    ∃ last, FillsInOrder ((fields ++ more).map (Field.slot children)) d texts last ∧
      last.Describes n ∧
      ∀ f : Field, f.filled d = true ∨ f ∈ fields → f.filled last = true := by
  induction htext generalizing d with
  | nil =>
    refine ⟨d, .done d ?_, hd, by simp⟩
    simp only [List.nil_append, List.all_map, List.all_eq_true]
    rintro f hf
    obtain rfl := hmore f hf
    rfl
  | @cons f w fields texts hw _ ih =>
    obtain ⟨next, htake, hnext, hfilled⟩ := Field.fill_takes hinside hw isGap_nil hd
    obtain ⟨last, hfill, hdescribes, hlast⟩ := ih hnext
    refine ⟨last, .step (Field.isItem hinside hw) htake hfill, hdescribes, fun other hother => ?_⟩
    apply hlast
    simp only [List.mem_cons] at hother
    simp only [hfilled, Bool.or_eq_true, decide_eq_true_eq]
    tauto

theorem object_conveys (hinside : ∀ w, inside w → Conveys children n.nodes w) {w : Text}
    (hw : IsObject n inside w) :
    ∃ r, toNode r = .ok n ∧
      Takes (record (some (Draft.slots children)) false {} Draft.complete) w (.ok r) := by
  obtain ⟨entries, hentry, hnodup, hneeded, hw⟩ := hw
  obtain ⟨draft, hfill, hdescribes, hfilled⟩ :=
    fills_entries hinside hentry hnodup (Draft.describes_empty n) fun f _ => by cases f <;> rfl
  obtain ⟨r, hr, hnode⟩ := hdescribes.complete fun f hf => hfilled f (.inr (hneeded f hf))
  have hfield : ∀ p ∈ entries.map Prod.snd, ∃ key s, IsField key s p := by
    rw [List.forall_mem_map]
    rintro ⟨owner, p⟩ he
    cases owner with
    | none =>
      obtain ⟨key, gap, w, -, -, -, hp⟩ := hentry _ he
      exact ⟨key, gap ++ w, hp⟩
    | some f =>
      obtain ⟨gap, w, -, -, hp⟩ := hentry _ he
      exact ⟨f.key, gap ++ w, hp⟩
  have hcomplete : ∀ d, Except.ok draft = (.ok d : Except Fault Draft) → d.complete = some r := by
    rintro d ⟨rfl⟩
    exact hr
  exact ⟨r, hnode, record_takes hfill hfield hcomplete hw isGap_nil⟩

theorem positional_conveys (hinside : ∀ w, inside w → Conveys children n.nodes w) {w : Text}
    (hw : IsPositional n inside w) :
    ∃ r, toNode r = .ok n ∧
      Takes (record (some (Draft.slots children)) false {} Draft.complete) w (.ok r) := by
  obtain ⟨fields, texts, hfields, htext, hw⟩ := hw
  obtain ⟨more, hmore, hall, hneeded⟩ : ∃ more : List Field, (∀ f ∈ more, f = .nodes) ∧
      fields ++ more = Field.all ∧ ∀ f : Field, f.Needed n → f ∈ fields := by
    rcases hfields with rfl | ⟨hempty, rfl⟩
    · exact ⟨[], by simp, by simp, fun f _ => f.mem_all⟩
    · refine ⟨[.nodes], by simp, rfl, fun f hf => ?_⟩
      cases f with
      | type | value | name | args => decide
      | nodes => exact absurd hempty hf
  obtain ⟨draft, hfill, hdescribes, hfilled⟩ :=
    fills_texts hinside htext hmore (Draft.describes_empty n)
  obtain ⟨r, hr, hnode⟩ := hdescribes.complete fun f hf => hfilled f (.inr (hneeded f hf))
  rw [hall, ← Field.slots_eq] at hfill
  exact ⟨r, hnode, record_takes_inOrder hfill hr false hw isGap_nil⟩

/-- A record is read as a record of the node, whichever form it has. -/
theorem record_conveys (hinside : ∀ w, inside w → Conveys children n.nodes w) {w : Text}
    (hw : IsRecord n inside w) :
    IsItem w ∧ ∃ r, toNode r = .ok n ∧
      Takes (record (some (Draft.slots children)) false {} Draft.complete) w (.ok r) := by
  rcases hw with hw | hw
  · refine ⟨?_, object_conveys hinside hw⟩
    obtain ⟨entries, -, -, -, hw⟩ := hw
    exact hw.isItem (by decide) (by decide)
  · refine ⟨?_, positional_conveys hinside hw⟩
    obtain ⟨fields, texts, -, -, hw⟩ := hw
    exact hw.isItem (by decide) (by decide)

end

end NodeRecord

namespace Node
open NodeRecord

/-- The texts of a list, by what its items may be. -/
def IsList (pieces : List Text → Prop) (w : Text) : Prop := ∃ ps, pieces ps ∧ Enclosed '[' ps ']' w

mutual

/-- The text describes the node, without gaps around it. -/
def Spells : Node → Text → Prop
  | .text value => IsRecord (.text value) (IsList (· = []))
  | .reference name => IsRecord (.reference name) (IsList (· = []))
  | .block kind args children =>
    IsRecord (.block kind args children) (IsList (ListSpells children))

/-- The texts describe the nodes, one each. -/
def ListSpells : List Node → List Text → Prop
  | [], ps => ps = []
  | n :: ns, ps => ∃ p rest, ps = p :: rest ∧ n.Spells p ∧ ListSpells ns rest

end

/-- The text describes the tree, with gaps around it. -/
def TreeSpells (tree : List Node) (json : Text) : Prop :=
  ∃ g w h, IsGap g ∧ IsList (ListSpells tree) w ∧ IsGap h ∧ json = g ++ w ++ h

theorem spells_eq (n : Node) : n.Spells = IsRecord n (IsList (ListSpells n.nodes)) := by
  have hnil : ListSpells [] = (· = []) := by
    funext ps
    rw [ListSpells]
  cases n <;> simp only [Spells, nodes, hnil]

theorem listSpells_map {write : Node → Text} {tree : List Node}
    (h : ∀ n ∈ tree, n.Spells (write n)) : ListSpells tree (tree.map write) := by
  induction tree with
  | nil => simp [ListSpells]
  | cons n ns ih =>
    obtain ⟨hn, hns⟩ := List.forall_mem_cons.1 h
    rw [List.map_cons, ListSpells]
    exact ⟨write n, _, rfl, hn, ih hns⟩

/-- The node is read from all its texts where lists and objects may still nest as deep as it does. A
leaf may hold an empty list of nodes, which is one level more than it takes, but every node stands
where an even number of levels is left. -/
def Readable (n : Node) : Prop :=
  ∀ k w, n.levels ≤ 2 * k → n.Spells w →
    IsItem w ∧ ∃ r, toNode r = .ok n ∧ Takes (reader (2 * k)) w (.ok r)

theorem exists_records {ns : List Node} (h : ∀ n ∈ ns, n.Readable) {k : Nat}
    (hk : ∀ n ∈ ns, n.levels ≤ 2 * k) {ps : List Text} (hps : ListSpells ns ps) :
    ∃ bs : List (Text × NodeRecord), bs.map Prod.fst = ps ∧
      toNodes (bs.map Prod.snd) = .ok ns ∧
      ∀ b ∈ bs, IsItem b.1 ∧ Takes (reader (2 * k)) b.1 (.ok b.2) := by
  induction ns generalizing ps with
  | nil =>
    rw [ListSpells] at hps
    exact ⟨[], hps.symm, rfl, by simp⟩
  | cons n ns ih =>
    rw [ListSpells] at hps
    obtain ⟨p, rest, rfl, hp, hrest⟩ := hps
    obtain ⟨hn, hns⟩ := List.forall_mem_cons.1 h
    obtain ⟨hkn, hkns⟩ := List.forall_mem_cons.1 hk
    obtain ⟨hitem, r, hr, htake⟩ := hn k p hkn hp
    obtain ⟨bs, rfl, hbs, hread⟩ := ih hns hkns hrest
    refine ⟨(p, r) :: bs, rfl, ?_, List.forall_mem_cons.2 ⟨⟨hitem, htake⟩, hread⟩⟩
    rw [List.map_cons, toNodes, hr, hbs]
    rfl

/-- A list of nodes is read if each of them is. -/
theorem list_conveys {ns : List Node} (h : ∀ n ∈ ns, n.Readable) {k : Nat}
    (hk : listLevels ns ≤ 2 * k + 1) {w : Text} (hw : IsList (ListSpells ns) w) :
    Conveys (listReader (2 * k + 1)) ns w := by
  obtain ⟨ps, hps, hw⟩ := hw
  obtain ⟨bs, rfl, hrs, hread⟩ := exists_records h (listLevels_le_iff.1 hk) hps
  refine ⟨hw.isItem (by decide) (by decide), bs.map Prod.snd, hrs, fun gap hgap => ?_⟩
  have htake : Takes (listReader (2 * k + 1)) (gap ++ w) (bs.mapM fun b => .ok b.2) :=
    Json.list_takes hread hw hgap
  have hall : (bs.mapM fun b => .ok b.2) = (.ok (bs.map Prod.snd) : Except Fault _) :=
    List.mapM_pure
  rwa [hall] at htake

theorem readable (n : Node) : n.Readable := by
  induction n using nodesInduction with
  | step n ih =>
    intro k w hk hw
    obtain ⟨j, rfl, hj⟩ : ∃ j, k = j + 1 ∧ listLevels n.nodes ≤ 2 * j + 1 := by
      refine ⟨k - 1, ?_⟩
      cases n <;> simp only [levels, nodes, listLevels] at hk ⊢ <;> omega
    rw [spells_eq] at hw
    exact record_conveys (fun v hv => list_conveys ih hj hv) hw

end Node

namespace Layout
open Node NodeRecord

variable (l : Layout)

theorem spells_text (level : Nat) (s : Text) : Quoted.Spells s (l.write level (.text s)) := by
  rw [l.write_text]
  exact Quoted.spells_write s

/-- An object with fields of its own only. -/
theorem isObject_write {n : Node} {inside : Text → Prop} {level : Nat}
    (fields : List (NodeRecord.Field × Document))
    (htexts : ∀ f ∈ fields, f.1.Says n inside (l.write (level + 1) f.2))
    (hnodup : (fields.map Prod.fst).Nodup)
    (hneeded : ∀ f : NodeRecord.Field, f.Needed n → f ∈ fields.map Prod.fst) :
    IsObject n inside (l.write level (.object (fields.map fun f => (f.1.key, f.2)))) := by
  let entry (f : NodeRecord.Field × Document) : Option NodeRecord.Field × Text :=
    (some f.1, field f.1.key (l.space ++ l.write (level + 1) f.2))
  have howned : owned (fields.map entry) = fields.map Prod.fst := by
    rw [owned, List.filterMap_map]
    exact congrFun List.filterMap_eq_map fields
  refine ⟨fields.map entry, ?_, by rwa [howned], by rwa [howned], ?_⟩
  · rw [List.forall_mem_map]
    exact fun f hf => ⟨l.space, _, l.isGap_space, htexts f hf, isField_field _ _⟩
  · have hobject := l.enclosed_object level (fields.map fun f => (f.1.key, f.2))
    rw [List.map_map, fieldTexts, List.map_map] at hobject
    rw [List.map_map]
    exact hobject

theorem isList_write {tree : List Node}
    (h : ∀ n ∈ tree, ∀ level, n.Spells (l.write level n.toDocument)) (level : Nat) :
    IsList (ListSpells tree) (l.write level (.list (toDocuments tree))) := by
  have hlist := l.enclosed_list level (toDocuments tree)
  rw [toDocuments_eq_map, List.map_map, ← toDocuments_eq_map] at hlist
  exact ⟨_, listSpells_map fun n hn => h n hn (level + 1), hlist⟩

theorem spells_write (n : Node) (level : Nat) : n.Spells (l.write level n.toDocument) := by
  induction n using Node.nodesInduction generalizing level with
  | step n ih =>
    have hnodes := l.isList_write ih (level + 1)
    rw [spells_eq]
    left
    cases n with
    | text value =>
      refine l.isObject_write [(.type, .text "text".toList), (.value, .text value)] ?_ (by simp) ?_
      · simp only [List.forall_mem_cons]
        exact ⟨⟨_, by simp [types, textTypes], l.spells_text _ _⟩, l.spells_text _ _, by simp⟩
      · rintro (_ | _ | _ | _ | _) <;> simp [Field.Needed, value?, name?, args?, nodes]
    | reference name =>
      refine l.isObject_write [(.type, .text "variable".toList), (.name, .text name)] ?_ (by simp)
        ?_
      · simp only [List.forall_mem_cons]
        exact ⟨⟨_, by simp [types, referenceTypes], l.spells_text _ _⟩, l.spells_text _ _, by simp⟩
      · rintro (_ | _ | _ | _ | _) <;> simp [Field.Needed, value?, name?, args?, nodes]
    | block kind args children =>
      have htype : "block".toList ∈ (block kind args children).types := by simp [types, blockTypes]
      cases args with
      | none =>
        refine l.isObject_write [(.type, .text "block".toList), (.name, .text kind.name),
          (.nodes, .list (toDocuments children))] ?_ (by simp) ?_
        · simp only [List.forall_mem_cons]
          exact ⟨⟨_, htype, l.spells_text _ _⟩, l.spells_text _ _, hnodes, by simp⟩
        · rintro (_ | _ | _ | _ | _) <;> simp [Field.Needed, value?, args?]
      | some s =>
        refine l.isObject_write [(.type, .text "block".toList), (.name, .text kind.name),
          (.args, .text s), (.nodes, .list (toDocuments children))] ?_ (by simp) ?_
        · simp only [List.forall_mem_cons]
          exact ⟨⟨_, htype, l.spells_text _ _⟩, l.spells_text _ _, l.spells_text _ _, hnodes,
            by simp⟩
        · rintro (_ | _ | _ | _ | _) <;> simp [Field.Needed, value?]

theorem treeSpells_write (tree : List Node) :
    TreeSpells tree (l.write 0 (.list (toDocuments tree))) :=
  ⟨[], _, [], isGap_nil, l.isList_write (fun n _ => l.spells_write n) 0, isGap_nil, by simp⟩

end Layout

namespace Node

/-- How a tree is written does not matter. If no list or object of its JSON stands deeper than at
level 127, the tree is read from every text that describes it: with the keys of any object in any
order, gaps between any tokens, unknown keys with any values behind them, `null` for what a node
does not have, without an empty list of nodes, with either name of a type, and with any node as a
list of its fields. The JSON that is written for the tree is one of these texts, on one line or on
many. -/
theorem listOfJson_of_treeSpells (tree : List Node)
    (hlevels : ∀ level ∈ jsonLevels tree, level ≤ 127) :
    TreeSpells tree (listToJson tree) ∧ TreeSpells tree (listToPrettyJson tree) ∧
    ∀ json, TreeSpells tree json → listOfJson json = .ok tree := by
  refine ⟨Layout.compact.treeSpells_write tree, Layout.pretty.treeSpells_write tree, ?_⟩
  rintro json ⟨g, w, h, hg, hw, hh, rfl⟩
  have hroom : listLevels tree ≤ 2 * 63 + 1 := (listLevels_le_iff_jsonLevels tree 127).2 hlevels
  obtain ⟨-, rs, hrs, htake⟩ := list_conveys (fun n _ => n.readable) hroom hw
  have hread : NodeRecord.listOfJson (g ++ w ++ h) = .ok rs := by
    rw [NodeRecord.listOfJson, NodeRecord.maxLevels, readWhole_of_takes (htake g hg) hh]
    rfl
  rw [listOfJson, hread]
  exact hrs

theorem listOfJson_of_treeSpells_mixed :
    (∀ level ∈ jsonLevels [.text ['a'], .block .each none []], level ≤ 127) ∧
    listOfJson ("[[\"_t\",\"a\",null,null],".toList ++
      "\x7b \"k\": [\"\\ud800\"], \"name\": \"each\", \"type\": \"#\" \x7d]\n".toList) =
      .ok [.text ['a'], .block .each none []] := by
  have hspace : IsGap [' '] := by simp [IsGap, isGap]
  have hvalue : IsValue "[\"\\ud800\"]".toList := by
    have hunit : Quoted.IsUnit "\\ud800".toList :=
      @Quoted.IsUnit.number 0xD800 "d800".toList (by decide)
    refine @IsValue.list _ ["\"\\ud800\"".toList] ?_
      ⟨_, [], row_spread isGap_nil true _, isGap_nil, rfl⟩
    exact List.forall_mem_singleton.2
      (.quoted ⟨["\\ud800".toList], List.forall_mem_singleton.2 hunit, rfl⟩)
  have htext : (text ['a']).Spells "[\"_t\",\"a\",null,null]".toList := by
    rw [spells_eq]
    refine .inr ⟨[.type, .value, .name, .args],
      [Quoted.write "_t".toList, Quoted.write ['a'], "null".toList, "null".toList],
      .inr ⟨rfl, rfl⟩, ?_, ⟨_, [], row_spread isGap_nil true _, isGap_nil, rfl⟩⟩
    exact .cons ⟨_, by decide, Quoted.spells_write "_t".toList⟩
      (.cons (Quoted.spells_write ['a']) (.cons rfl (.cons rfl .nil)))
  have hblock : (block .each none []).Spells
      "\x7b \"k\": [\"\\ud800\"], \"name\": \"each\", \"type\": \"#\" \x7d".toList := by
    rw [spells_eq]
    refine .inl ⟨[(none, field ['k'] (' ' :: "[\"\\ud800\"]".toList)),
      (some .name, field "name".toList (' ' :: Quoted.write "each".toList)),
      (some .type, field "type".toList (' ' :: Quoted.write ['#']))], ?_, by decide, ?_,
      ⟨_, [' '], row_spread hspace true _, hspace, rfl⟩⟩
    · simp only [List.forall_mem_cons]
      refine ⟨⟨['k'], [' '], _, ?_, hspace, hvalue, isField_field _ _⟩,
        ⟨[' '], _, hspace, Quoted.spells_write "each".toList, isField_field _ _⟩,
        ⟨[' '], _, hspace, ⟨_, by decide, Quoted.spells_write ['#']⟩, isField_field _ _⟩, by simp⟩
      intro f
      cases f <;> decide
    · rintro (_ | _ | _ | _ | _) <;>
        simp [NodeRecord.Field.Needed, value?, args?, nodes, NodeRecord.owned]
  have hlevels : ∀ level ∈ jsonLevels [.text ['a'], .block .each none []], level ≤ 127 := by decide
  refine ⟨hlevels, (listOfJson_of_treeSpells _ hlevels).2.2 _
    ⟨[], _, ['\n'], isGap_nil, ⟨_, ⟨_, _, rfl, htext, _, _, rfl, hblock, rfl⟩,
      _, [], row_spread isGap_nil true _, isGap_nil, rfl⟩, by simp [IsGap, isGap], rfl⟩⟩

end Node

end HandlebarsToTwig
