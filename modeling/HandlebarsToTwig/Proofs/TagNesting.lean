import HandlebarsToTwig.Proofs.Rendering
import HandlebarsToTwig.Proofs.Text

/-! The block tags of an emitted template, found by reading it from left to right. As long as no
part of the tree has a percent sign in it, they are the tags of the emitted blocks and no others, so
they are properly nested. -/
namespace HandlebarsToTwig

namespace Text

/-- A text without the first character of a mark holds no mark, and none begins in it. -/
theorem cut?_append_of_notMem {c : Char} {s : Text} (h : c ∉ s) (mark t : Text) :
    cut? (c :: mark) (s ++ t) = (cut? (c :: mark) t).map fun (before, rest) =>
      (s ++ before, rest) := by
  induction s with
  | nil => simp
  | cons d s ih =>
    rw [List.mem_cons, not_or] at h
    rw [List.cons_append, cut?]
    simp [after?, h.1, ih h.2, Function.comp_def]

/-- A text without the second character of a mark of two holds no mark, and one that begins in it
would need that character right behind it. -/
theorem cut?_pair_append_of_notMem {c d : Char} {s t : Text} (h : d ∉ s) (ht : t.head? ≠ some d) :
    cut? [c, d] (s ++ t) = (cut? [c, d] t).map fun (before, rest) => (s ++ before, rest) := by
  induction s with
  | nil => simp
  | cons e s ih =>
    rw [List.mem_cons, not_or] at h
    have hnext : (s ++ t).head? ≠ some d := by
      cases s with
      | nil => exact ht
      | cons f s => simpa using Ne.symm (List.ne_of_not_mem_cons h.2)
    have hnone : after? [c, d] (e :: (s ++ t)) = none := by
      rw [after?_eq_none]
      rintro ⟨r, hr⟩
      obtain ⟨-, hr⟩ := List.cons.inj hr
      rw [← hr] at hnext
      exact hnext rfl
    rw [List.cons_append, cut?, hnone, ih h.2]
    simp [Function.comp_def]

end Text

/-- What a pair of block tags is for. -/
inductive Construct
  | condition
  | loop
  deriving DecidableEq, Repr

inductive BlockTag
  | start (c : Construct)
  | stop (c : Construct)
  deriving DecidableEq, Repr

namespace BlockTag

/-- The tag that begins with a word. -/
def ofWord? (word : Text) : Option BlockTag :=
  if word = "if".toList then some (start .condition)
  else if word = "endif".toList then some (stop .condition)
  else if word = "for".toList then some (start .loop)
  else if word = "endfor".toList then some (stop .loop)
  else none

/-- The tag with this text between its marks. -/
def ofInner? (inner : Text) : Option BlockTag :=
  ofWord? (Text.firstWord (Text.trimStart inner)).1

/-- The block tags of an emitted template, from left to right. There are none to be had if a tag is
not closed, or begins with any other word. -/
def scan (s : Text) : Option (List BlockTag) :=
  match _h : Text.cut? ['{', '%'] s with
  | none => some []
  | some (_, s') =>
    match _h' : Text.cut? ['%', '}'] s' with
    | none => none
    | some (inner, rest) => (ofInner? inner).bind fun tag => (scan rest).map (tag :: ·)
termination_by s.length
decreasing_by
  have hs := Text.eq_append_of_cut? _h
  have hs' := Text.eq_append_of_cut? _h'
  simp only [hs, hs', List.length_append, List.length_cons]
  omega

/-- One tag, with the constructs that are open in front of it and behind it, innermost first. A
closing tag must be that of the innermost one. -/
def step (opened : List Construct) : BlockTag → Option (List Construct)
  | start c => some (c :: opened)
  | stop c =>
    match opened with
    | [] => none
    | d :: opened => if c = d then some opened else none

/-- Every tag is closed by its own closing tag, in the right order, and none is left open. -/
def Nested (tags : List BlockTag) : Prop := tags.foldlM step [] = some []

instance (tags : List BlockTag) : Decidable (Nested tags) :=
  inferInstanceAs (Decidable (_ = _))

/-- The construct that a tag opens. -/
def started? : BlockTag → Option Construct
  | start c => some c
  | stop _ => none

theorem scan_eq (s : Text) :
    scan s =
      match Text.cut? ['{', '%'] s with
      | none => some []
      | some (_, s') =>
        match Text.cut? ['%', '}'] s' with
        | none => none
        | some (inner, rest) => (ofInner? inner).bind fun tag => (scan rest).map (tag :: ·) := by
  rw [scan]
  split
  · simp_all
  · split <;> simp_all

theorem scan_nil : scan [] = some [] := by
  rw [scan_eq]
  rfl

/-- Text without a percent sign is passed over. -/
theorem scan_append_of_notMem {s t : Text} (h : '%' ∉ s) (ht : t.head? ≠ some '%') :
    scan (s ++ t) = scan t := by
  rw [scan_eq, scan_eq t, Text.cut?_pair_append_of_notMem h ht]
  cases Text.cut? ['{', '%'] t <;> rfl

theorem ofInner?_of_word {word : Text} (hw : word.any Text.isBlank = false) (hne : word ≠ [])
    (rest : Text) : ofInner? (' ' :: (word ++ ' ' :: rest)) = ofWord? word := by
  rw [List.any_eq_false] at hw
  have hstart : Text.trimStart word = word := by
    rw [Text.trimStart, List.dropWhile_eq_self_iff]
    intro hl
    simp [hw _ (List.getElem_mem hl)]
  have htrim : Text.trimStart (' ' :: (word ++ ' ' :: rest)) = word ++ ' ' :: rest := by
    rw [Text.trimStart_cons_blank (by decide), Text.trimStart_append (by rwa [hstart]), hstart]
  have hblank : Text.isBlank ' ' = true := by decide
  have hword : (Text.firstWord (word ++ ' ' :: rest)).1 = word := by
    rw [Text.firstWord, List.takeWhile_append_of_pos (by simpa using hw)]
    simp [hblank]
  rw [ofInner?, htrim, hword]

/-- The tag with this body, which holds no percent sign, is read as `tag`. -/
structure Spells (body : Text) (tag : BlockTag) : Prop where
  free : '%' ∉ body
  read : ofInner? (' ' :: (body ++ [' '])) = some tag

/-- The words that begin tags hold neither blanks nor percent signs. -/
theorem plain_of_ofWord? {word : Text} {tag : BlockTag} (h : ofWord? word = some tag) :
    word ≠ [] ∧ '%' ∉ word ∧ word.any Text.isBlank = false := by
  have hmem : word = "if".toList ∨ word = "endif".toList ∨ word = "for".toList ∨
      word = "endfor".toList := by
    unfold ofWord? at h
    split_ifs at h <;> simp_all
  rcases hmem with rfl | rfl | rfl | rfl <;> decide

theorem spells_word {word : Text} {tag : BlockTag} (h : ofWord? word = some tag) :
    Spells word tag := by
  obtain ⟨hne, hfree, hplain⟩ := plain_of_ofWord? h
  exact ⟨hfree, (ofInner?_of_word hplain hne []).trans h⟩

theorem spells_word_append {word rest : Text} {tag : BlockTag} (h : ofWord? word = some tag)
    (hr : '%' ∉ rest) : Spells (word ++ ' ' :: rest) tag := by
  obtain ⟨hne, hfree, hplain⟩ := plain_of_ofWord? h
  refine ⟨by simp [hfree, hr], ?_⟩
  rw [List.append_assoc, List.cons_append]
  exact (ofInner?_of_word hplain hne (rest ++ [' '])).trans h

/-- A tag is found where it stands, whatever comes behind it. -/
theorem Spells.scan_append {body : Text} {tag : BlockTag} (h : Spells body tag) (t : Text) :
    scan (({} : Dialect).tag body ++ t) = (scan t).map (tag :: ·) := by
  have hinner : '%' ∉ ' ' :: (body ++ [' ']) := by simpa using h.free
  have htag : ({} : Dialect).tag body ++ t =
      ['{', '%'] ++ (' ' :: (body ++ [' ']) ++ (['%', '}'] ++ t)) := by simp [Dialect.tag]
  have hclose : Text.cut? ['%', '}'] (['%', '}'] ++ t) = some ([], t) :=
    Text.cut?_eq_some_nil.2 rfl
  rw [htag, scan_eq, Text.cut?_eq_some_nil.2 rfl]
  simp only [Text.cut?_append_of_notMem hinner, hclose, Option.map_some, List.append_nil, h.read,
    Option.bind_some]

end BlockTag

/-- Texts with a space in front of each. -/
def spaced (fragments : List Text) : Text := fragments.flatMap (' ' :: ·)

theorem spaced_cons (f : Text) (fs : List Text) : spaced (f :: fs) = ' ' :: (f ++ spaced fs) := rfl

theorem spaced_append (fs gs : List Text) : spaced (fs ++ gs) = spaced fs ++ spaced gs :=
  List.flatMap_append

theorem joined_cons (f : Text) (fs : List Text) : joined (f :: fs) = f ++ spaced fs := by
  induction fs generalizing f with
  | nil => simp [joined, spaced]
  | cons g fs ih =>
    rw [spaced_cons, ← ih g]
    simp [joined, List.intercalate]

theorem head?_spaced_append (fs : List Text) {t : Text} (h : t.head? ≠ some '%') :
    (spaced fs ++ t).head? ≠ some '%' := by
  cases fs with
  | nil => exact h
  | cons f fs => simp [spaced_cons]

theorem BlockTag.scan_space (t : Text) : scan (' ' :: t) = scan t := by
  have hcut := Text.cut?_append_of_notMem (show '{' ∉ [' '] by decide) ['%'] t
  rw [List.singleton_append] at hcut
  rw [scan_eq, scan_eq t, hcut]
  cases Text.cut? ['{', '%'] t <;> rfl

/-- A fragment without a percent sign adds no tag, and takes none away. -/
theorem BlockTag.scan_spaced_cons {f t : Text} (hf : '%' ∉ f) (fs : List Text)
    (ht : t.head? ≠ some '%') : scan (spaced (f :: fs) ++ t) = scan (spaced fs ++ t) := by
  rw [spaced_cons, List.cons_append, scan_space, List.append_assoc]
  exact scan_append_of_notMem hf (head?_spaced_append fs ht)

theorem BlockTag.scan_joined (fs : List Text) : scan (joined fs) = scan (spaced fs) := by
  cases fs with
  | nil => rfl
  | cons f fs => rw [joined_cons, spaced_cons, scan_space]

namespace BlockKind

def construct : BlockKind → Construct
  | when => .condition
  | whenNot => .condition
  | each => .loop

/-- Whether a block is emitted. A loop without an iterator is left out with all that it holds. -/
def isEmitted : BlockKind → (args : Option Text) → Bool
  | each, args => (LoopScope.of? args).isSome
  | _, _ => true

end BlockKind

namespace Node

mutual

/-- The texts, names and arguments in a node and in those inside it. -/
def strings : Node → List Text
  | .text value => [value]
  | .reference name => [name]
  | .block _ args children => args.toList ++ listStrings children

def listStrings : List Node → List Text
  | [] => []
  | n :: ns => n.strings ++ listStrings ns

end

mutual

/-- The kinds of the blocks that are emitted for a node, in the order of their opening tags. -/
def emittedKinds : Node → List BlockKind
  | .text _ => []
  | .reference _ => []
  | .block kind args children =>
    if kind.isEmitted args then kind :: listEmittedKinds children else []

def listEmittedKinds : List Node → List BlockKind
  | [] => []
  | n :: ns => n.emittedKinds ++ listEmittedKinds ns

end

mutual

/-- The block tags around and inside the emitted blocks of a node. -/
def tags : Node → List BlockTag
  | .text _ => []
  | .reference _ => []
  | .block kind args children =>
    if kind.isEmitted args then
      .start kind.construct :: listTags children ++ [.stop kind.construct]
    else []

def listTags : List Node → List BlockTag
  | [] => []
  | n :: ns => n.tags ++ listTags ns

end

/-- The tags of a tree leave the constructs around it as they are. -/
theorem foldlM_step_listTags (tree : List Node) (opened : List Construct) :
    (listTags tree).foldlM BlockTag.step opened = some opened := by
  induction tree using Node.listInduction generalizing opened with
  | nil => rfl
  | text value ns ih => simpa [listTags, tags] using ih opened
  | reference name ns ih => simpa [listTags, tags] using ih opened
  | block kind args children ns ihc ihn =>
    rw [listTags, List.foldlM_append, tags]
    split
    · simp [BlockTag.step, ihc, ihn]
    · exact ihn opened

/-- The opening tags of a tree are those of its emitted blocks, one for each. -/
theorem filterMap_started_listTags (tree : List Node) :
    (listTags tree).filterMap BlockTag.started? =
      (listEmittedKinds tree).map BlockKind.construct := by
  induction tree using Node.listInduction with
  | nil => rfl
  | text value ns ih => simpa [listTags, tags, listEmittedKinds, emittedKinds] using ih
  | reference name ns ih => simpa [listTags, tags, listEmittedKinds, emittedKinds] using ih
  | block kind args children ns ihc ihn =>
    rw [listTags, listEmittedKinds, List.filterMap_append, List.map_append, ihn, tags, emittedKinds]
    split
    · simp [BlockTag.started?, ihc]
    · rfl

end Node

section

variable {c : Char}

theorem LoopScope.notMem_of_of? {args : Option Text} {loop : LoopScope}
    (h : LoopScope.of? args = some loop) (hc : ∀ path ∈ args, c ∉ path) :
    c ∉ loop.iterator ∧ c ∉ loop.collection := by
  obtain ⟨path, rfl, h⟩ := Option.bind_eq_some_iff.1 h
  obtain ⟨iterator, hi, rfl⟩ := Option.map_eq_some_iff.1 h
  obtain ⟨first, hfirst, rfl⟩ := Option.map_eq_some_iff.1 hi
  have htrim : c ∉ Text.trim path := fun hm => hc path rfl ((Text.trim_isInfix path).subset hm)
  refine ⟨?_, htrim⟩
  have hseg : first ∈ Text.trim path := by
    have hmem := List.mem_of_head? hfirst
    rw [lastSegment, List.mem_reverse] at hmem
    exact List.mem_reverse.1 ((List.takeWhile_subset _) hmem)
  intro hm
  rw [List.mem_singleton] at hm
  exact htrim (hm ▸ hseg)

theorem ScopeStack.notMem_resolve {top : Option LoopScope} {loopIndex name : Text}
    (htop : ∀ loop ∈ top, c ∉ loop.iterator) (hindex : c ∉ loopIndex) (hname : c ∉ name)
    (hdot : c ≠ '.') : c ∉ ScopeStack.resolve top.toList loopIndex name := by
  cases top with
  | none => exact hname
  | some loop =>
    have hloop := htop loop rfl
    simp only [resolve, Option.toList_some, List.head?_cons]
    split
    · exact hindex
    · split
      · exact hloop
      · split
        · next path hpath =>
          have := Text.after?_eq_some.1 hpath
          have hp : c ∉ path := fun hm => hname (this ▸ List.mem_append_right _ hm)
          simp [hloop, hdot, hp]
        · split
          · exact hindex
          · exact hname

end

namespace Node
open BlockTag

theorem emitted_of_not_isEmitted {kind : BlockKind} {args : Option Text}
    (h : kind.isEmitted args = false) (d : Dialect) (top : Option LoopScope)
    (children : List Node) : (block kind args children).emitted d top = [] := by
  cases kind with
  | when => cases h
  | whenNot => cases h
  | each =>
    have hloop : LoopScope.of? args = none := by simpa [BlockKind.isEmitted] using h
    rw [emitted, hloop]

/-- An emitted block stands between an opening and a closing tag. -/
theorem emitted_block {kind : BlockKind} {args : Option Text} (h : kind.isEmitted args = true)
    (hargs : ∀ s ∈ args, '%' ∉ s) {top : Option LoopScope}
    (htop : ∀ loop ∈ top, '%' ∉ loop.iterator) (children : List Node) :
    ∃ opening closing inner,
      (block kind args children).emitted {} top =
        ({} : Dialect).tag opening :: listEmitted {} inner children ++
          [({} : Dialect).tag closing] ∧
      Spells opening (.start kind.construct) ∧ Spells closing (.stop kind.construct) ∧
      ∀ loop ∈ inner, '%' ∉ loop.iterator := by
  have hcondition : '%' ∉ args.getD [] := by
    cases args with
    | none => simp
    | some s => exact hargs s rfl
  have hendif : Spells "endif".toList (.stop .condition) := spells_word rfl
  cases kind with
  | when =>
    refine ⟨"if".toList ++ ' ' :: args.getD [], _, top, by rw [emitted]; rfl, ?_, hendif, htop⟩
    exact spells_word_append rfl hcondition
  | whenNot =>
    refine ⟨"if".toList ++ ' ' :: ("not ".toList ++ args.getD []), _, top, by rw [emitted]; rfl, ?_,
      hendif, htop⟩
    exact spells_word_append rfl (by simp [hcondition])
  | each =>
    obtain ⟨loop, hloop⟩ := Option.isSome_iff_exists.1 h
    obtain ⟨hiterator, hcollection⟩ := LoopScope.notMem_of_of? hloop hargs
    refine ⟨"for".toList ++ ' ' :: (loop.iterator ++ " in ".toList ++ loop.collection), _,
      some loop, by rw [emitted, hloop]; rfl, ?_, spells_word rfl, ?_⟩
    · exact spells_word_append rfl (by simp [hiterator, hcollection])
    · rintro _ ⟨rfl⟩
      exact hiterator

/-- The fragments of a tree without percent signs show its tags and nothing else, wherever they
stand. -/
theorem scan_listEmitted {tree : List Node} (hfree : ∀ s ∈ listStrings tree, '%' ∉ s)
    {top : Option LoopScope} (htop : ∀ loop ∈ top, '%' ∉ loop.iterator) {t : Text}
    (ht : t.head? ≠ some '%') :
    scan (spaced (listEmitted {} top tree) ++ t) = (scan t).map (listTags tree ++ ·) := by
  induction tree using Node.listInduction generalizing top t with
  | nil => simp [listEmitted, listTags, spaced]
  | text value ns ih =>
    simp only [listStrings, strings, List.forall_mem_append, List.forall_mem_singleton] at hfree
    simp only [listEmitted, emitted, listTags, tags, List.singleton_append, List.nil_append]
    rw [scan_spaced_cons hfree.1 _ ht]
    exact ih hfree.2 htop ht
  | reference name ns ih =>
    simp only [listStrings, strings, List.forall_mem_append, List.forall_mem_singleton] at hfree
    have hname := ScopeStack.notMem_resolve htop (show '%' ∉ ({} : Dialect).loopIndex by decide)
      hfree.1 (by decide)
    have hshown : '%' ∉ ({} : Dialect).interpolate
        (ScopeStack.resolve top.toList ({} : Dialect).loopIndex name) := by
      simp only [Dialect.interpolate, List.mem_append, not_or]
      exact ⟨⟨by decide, hname⟩, by decide⟩
    simp only [listEmitted, emitted, listTags, tags, List.singleton_append, List.nil_append]
    rw [scan_spaced_cons hshown _ ht]
    exact ih hfree.2 htop ht
  | block kind args children ns ihc ihn =>
    simp only [listStrings, strings, List.forall_mem_append, Option.mem_toList] at hfree
    obtain ⟨⟨hargs, hchildren⟩, hns⟩ := hfree
    rw [listEmitted, listTags, tags]
    cases hk : kind.isEmitted args with
    | false =>
      rw [emitted_of_not_isEmitted hk]
      simpa using ihn hns htop ht
    | true =>
      obtain ⟨opening, closing, inner, he, hopen, hclose, hinner⟩ :=
        emitted_block hk hargs htop children
      have hafter := ihn hns htop ht
      have hinside := ihc hchildren hinner (t := ' ' :: (({} : Dialect).tag closing ++
        (spaced (listEmitted {} top ns) ++ t))) (by simp)
      rw [scan_space, hclose.scan_append, hafter] at hinside
      simp only [he, List.cons_append, List.append_assoc, spaced_cons, spaced_append, scan_space,
        hopen.scan_append, List.nil_append, hinside, Option.map_map]
      simp [Function.comp_def]

end Node

/-- The block tags in the output of a tree whose texts, names and arguments hold no percent sign are
properly nested, and their opening tags are those of the emitted blocks in order: one `for` for each
loop, and one `if` for each condition. -/
theorem render_tags_nested {limit : Nat} {tree : List Node} {out : Text}
    (hfree : ∀ s ∈ Node.listStrings tree, '%' ∉ s) (h : render ⟨{}, limit⟩ tree = .ok out) :
    ∃ tags, BlockTag.scan out = some tags ∧ BlockTag.Nested tags ∧
      tags.filterMap BlockTag.started? = (Node.listEmittedKinds tree).map BlockKind.construct := by
  refine ⟨Node.listTags tree, ?_, Node.foldlM_step_listTags tree [],
    Node.filterMap_started_listTags tree⟩
  rw [render_ok h, ← Node.listEmitted_eq_listFragments, BlockTag.scan_joined]
  have hoff : ∀ loop ∈ (none : Option LoopScope), '%' ∉ loop.iterator := by simp
  have hscan := Node.scan_listEmitted hfree hoff (t := []) (by simp)
  rw [List.append_nil, BlockTag.scan_nil] at hscan
  simpa using hscan

/-- Braces that end a text or begin one, a condition without arguments, a loop inside of a loop and
one that is left out. -/
theorem render_tags_nested_braces :
    let tree : List Node :=
      [.text ['{'], .block .each (some "a.items".toList)
          [.block .when none [.reference "this".toList, .text ['}']],
            .block .each (some "this.x".toList) []],
        .block .each none [.block .when none []], .block .whenNot (some ['{']) []]
    let out := "\x7b \x7b% for i in a.items %\x7d \x7b% if  %\x7d \x7b\x7bi\x7d\x7d \x7d".toList ++
      " \x7b% endif %\x7d \x7b% for x in this.x %\x7d \x7b% endfor %\x7d".toList ++
      " \x7b% endfor %\x7d \x7b% if not \x7b %\x7d \x7b% endif %\x7d".toList
    (∀ s ∈ Node.listStrings tree, '%' ∉ s) ∧ render {} tree = .ok out ∧
    ∃ tags, BlockTag.scan out = some tags ∧ BlockTag.Nested tags ∧
      tags.filterMap BlockTag.started? = [.loop, .condition, .loop, .condition] := by
  intro tree out
  have hfree : ∀ s ∈ Node.listStrings tree, '%' ∉ s := by decide
  have hout : render {} tree = .ok out := by decide +kernel
  exact ⟨hfree, hout, render_tags_nested hfree hout⟩

end HandlebarsToTwig
