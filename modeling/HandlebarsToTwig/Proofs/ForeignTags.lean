import HandlebarsToTwig.Proofs.FirstFault
import HandlebarsToTwig.Proofs.Image

/-! Tags that do not look like variables: dividers of branches, tags with a sigil, and unescaped
output. The reader refuses them, but it knows a divider only by the space behind it and unescaped
output only by the three braces it starts with; in any other spelling these two are read as
variables. -/
namespace HandlebarsToTwig

/-- The content of a tag that does not look like the name of a variable. -/
inductive Foreign : (content : Text) → Prop
  /-- The first word divides the branches of a block. -/
  | divider {content : Text} : (Text.firstWord content).1 = "else".toList → Foreign content
  | marked {sigil : Char} {body : Text} : sigil ∈ sigils → Foreign (sigil :: body)
  /-- Unescaped output, its braces kept apart from those of the tag. -/
  | braced {body : Text} : Foreign ('{' :: body ++ ['}'])

/-- Foreign content that is read as the name of a variable: a divider with a blank behind it that is
not a space, and all content in braces. -/
inductive Leaks : (content : Text) → Prop
  | divider {blank : Char} {s : Text} :
    Text.isBlank blank → blank ≠ ' ' → Leaks ("else".toList ++ blank :: s)
  | braced {body : Text} : Leaks ('{' :: body ++ ['}'])

theorem Leaks.foreign {content : Text} (h : Leaks content) : Foreign content := by
  cases h with
  | @divider blank s hb _ =>
    refine .divider ?_
    have hword : ∀ c ∈ "else".toList, (!Text.isBlank c) = true := List.all_eq_true.1 (by decide)
    rw [Text.firstWord, List.takeWhile_append_of_pos hword]
    simp [hb]
  | braced => exact .braced

/-- Where the first word is a divider, either nothing follows, or a blank does. -/
theorem Foreign.divider_cases {content : Text} (h : (Text.firstWord content).1 = "else".toList) :
    content = "else".toList ∨
      ∃ blank s, Text.isBlank blank ∧ content = "else".toList ++ blank :: s := by
  have hsplit := List.takeWhile_append_dropWhile (p := (!Text.isBlank ·)) (l := content)
  have hword : content.takeWhile (!Text.isBlank ·) = "else".toList := h
  rw [hword] at hsplit
  cases hrest : content.dropWhile (!Text.isBlank ·) with
  | nil =>
    rw [hrest, List.append_nil] at hsplit
    exact .inl hsplit.symm
  | cons blank s =>
    have hb := List.head?_dropWhile_not (!Text.isBlank ·) content
    rw [hrest] at hb hsplit
    exact .inr ⟨blank, s, by simpa using hb, hsplit.symm⟩

/-- Of the names that can be read, those that look foreign are those that leak. -/
theorem IsName.leaks_of_foreign {name : Text} (hn : IsName name) (h : Foreign name) :
    Leaks name := by
  cases h with
  | divider hword =>
    rcases Foreign.divider_cases hword with rfl | ⟨blank, s, hb, rfl⟩
    · exact absurd rfl hn.not_else
    · refine .divider hb fun hspace => hn.not_else_if ?_
      rw [hspace]
      exact ⟨s, by simp⟩
  | @marked sigil body hs => exact absurd rfl (hn.unmarked sigil hs)
  | braced => exact .braced

theorem Leaks.isName {name : Text} (h : Leaks name) (hp : IsPiece name) : IsName name := by
  cases h with
  | @divider blank s _ hspace =>
    refine ⟨hp, by simp [sigils], by simp, ?_⟩
    rintro ⟨t, ht⟩
    have hrest : ' ' :: t = blank :: s :=
      List.append_cancel_left (show "else".toList ++ _ = _ from ht)
    exact hspace (List.cons.inj hrest).1.symm
  | braced => exact ⟨hp, by simp [sigils], by simp, by simp⟩

/-- Foreign content that does not leak is known for what it is, unless it opens or closes a
block. -/
theorem Lexeme.classify_of_foreign {content : Text} (hf : Foreign content) (hl : ¬ Leaks content)
    (hopen : content.head? ≠ some '#') (hclose : content.head? ≠ some '/') :
    ∃ token kind, classify content = .ok token ∧ token.unsupported? = some kind := by
  cases hf with
  | divider hword =>
    rcases Foreign.divider_cases hword with rfl | ⟨blank, s, hb, rfl⟩
    · exact ⟨.alternative, _, rfl, rfl⟩
    · obtain rfl : blank = ' ' := by
        by_contra hspace
        exact hl (.divider hb hspace)
      exact ⟨.alternative, _, by simp [classify, Text.after?], rfl⟩
  | @marked sigil body hs =>
    simp only [sigils, List.mem_cons, List.not_mem_nil, or_false] at hs
    rcases hs with rfl | rfl | rfl | rfl | rfl | rfl
    · exact ⟨_, _, rfl, rfl⟩
    · simp at hopen
    · simp at hclose
    · by_cases hempty : (Text.trim body).isEmpty
      · exact ⟨.alternative, _, by simp [classify, hempty], rfl⟩
      · exact ⟨.inverse (Text.trim body), _, by simp [classify, hempty], rfl⟩
    · exact ⟨_, _, rfl, rfl⟩
    · exact ⟨_, _, rfl, rfl⟩
  | braced => exact absurd .braced hl

namespace Node

mutual

/-- The names of the variables of a node, in order. -/
def references : Node → List Text
  | .text _ => []
  | .reference name => [name]
  | .block _ _ children => listReferences children

def listReferences : List Node → List Text
  | [] => []
  | n :: ns => n.references ++ listReferences ns

end

theorem mem_listReferences {name : Text} {tree : List Node} :
    name ∈ listReferences tree ↔ .reference name ∈ listTokens tree := by
  induction tree using Node.listInduction with
  | nil => simp [listReferences, listTokens]
  | text value ns ih => simp [listReferences, references, listTokens, tokens, ih]
  | reference other ns ih => simp [listReferences, references, listTokens, tokens, ih]
  | block kind args children ns ihc ihn =>
    simp [listReferences, references, listTokens, tokens, ihc, ihn]

theorem isName_of_mem_listReferences {source : Text} {limit : Nat} {tree : List Node} {name : Text}
    (h : ofSource source limit = .ok tree) (hm : name ∈ listReferences tree) : IsName name := by
  obtain ⟨hexpressible, -⟩ := listExpressible_of_ofSource h
  exact ((listExpressible_iff tree).1 hexpressible).1 _ (mem_listReferences.1 hm)

/-- Which tags that are no variables get through as variables, under every limit: exactly the pieces
that leak are names in trees of templates although they look foreign. All other foreign content is
known as such, and a template in which such a tag is the first fault is refused for it. -/
theorem foreign_reference_iff (limit : Nat) :
    (∀ name, (∃ source tree, ofSource source limit = .ok tree ∧ name ∈ listReferences tree ∧
        Foreign name) ↔ IsPiece name ∧ Leaks name) ∧
      (∀ content, Foreign content → ¬ Leaks content → content.head? ≠ some '#' →
        content.head? ≠ some '/' →
        ∃ token kind, Lexeme.classify content = .ok token ∧ token.unsupported? = some kind) ∧
      ∀ source before l after opened kind,
        Lexeme.ofSource source = .ok (before ++ l :: after) →
        OpenBlocks.run limit [] before = .ok opened → l.token.unsupported? = some kind →
        ofSource source limit = .error (.unsupported kind) := by
  refine ⟨fun name => ⟨?_, ?_⟩, ?_, ?_⟩
  · rintro ⟨source, tree, hs, hm, hf⟩
    have hn := isName_of_mem_listReferences hs hm
    exact ⟨hn.toIsPiece, hn.leaks_of_foreign hf⟩
  · rintro ⟨hp, hl⟩
    have hexpressible : ListExpressible [.reference name] :=
      ⟨hl.isName hp, by simp, trivial⟩
    refine ⟨_, _, ofSource_eq_ok_of_expressible hexpressible (Nat.zero_le limit), ?_, hl.foreign⟩
    simp [listReferences, references]
  · exact fun content hf hl => Lexeme.classify_of_foreign hf hl
  · intro source before l after opened kind hs hrun hk
    exact ofSource_of_fault hs hrun (OpenBlocks.step_of_unsupported hk)

/-- A divider with a tab behind it, and unescaped output in a tag with a mark on either side. -/
theorem ofSource_foreign_reference :
    let tag (content : String) := Lexeme.tagOpen ++ content.toList ++ Lexeme.tagClose
    let divided := tag "#if a" ++ "x".toList ++ tag "else\tif b" ++ "y".toList ++ tag "/if"
    let raw := tag "~\x7bx\x7d~"
    (ofSource divided defaultMaxDepth = .ok [.block .when (some "a".toList)
        [.text "x".toList, .reference "else\tif b".toList, .text "y".toList]] ∧
      Foreign "else\tif b".toList) ∧
    ofSource raw defaultMaxDepth = .ok [.reference "\x7bx\x7d".toList] ∧
      Foreign "\x7bx\x7d".toList := by
  intro tag divided raw
  refine ⟨⟨?_, .divider (by decide)⟩, ?_, @Foreign.braced ['x']⟩
  · exact ofSource_eq_ok_iff_map.2 ⟨by decide +kernel, by decide⟩
  · exact ofSource_eq_ok_iff_map.2 ⟨by decide +kernel, by decide⟩

end Node

end HandlebarsToTwig
