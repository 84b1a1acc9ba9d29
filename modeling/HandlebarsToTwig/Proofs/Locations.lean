import HandlebarsToTwig.Command.Run
import HandlebarsToTwig.Proofs.CursorCalls
import HandlebarsToTwig.Proofs.ParserCalls
import HandlebarsToTwig.Proofs.WhitespaceControl

/-! Where faults are reported. Every fault of a tag is reported at the offset of a tag, be it the
one at fault or that of a block which is never closed, and the line and the column that are printed
for it lead back to that offset and to no other. -/
namespace HandlebarsToTwig

namespace Text

theorem pieces_ne_nil (mark : Char) (s : Text) : pieces mark s ≠ [] := by
  cases s with
  | nil => simp [pieces]
  | cons c s =>
    rw [pieces]
    split
    · simp
    · split <;> simp

theorem pieces_cons_mark (mark : Char) (s : Text) :
    pieces mark (mark :: s) = [] :: pieces mark s := by
  obtain ⟨piece, rest, h⟩ := List.exists_cons_of_ne_nil (pieces_ne_nil mark s)
  simp [pieces, h]

theorem pieces_cons_of_ne {mark c : Char} (hc : c ≠ mark) {s piece : Text} {rest : List Text}
    (h : pieces mark s = piece :: rest) : pieces mark (c :: s) = (c :: piece) :: rest := by
  simp [pieces, h, hc]

/-- A text is cut into its pieces also behind `front`: the last piece of `front` goes on with the
first one of what comes behind it. -/
theorem pieces_append (mark : Char) (front back : Text) :
    ∃ above last first below, pieces mark front = above ++ [last] ∧
      pieces mark (front ++ back) = above ++ (last ++ first) :: below ∧
      above.flatMap (· ++ [mark]) ++ last = front := by
  induction front with
  | nil =>
    obtain ⟨first, below, h⟩ := List.exists_cons_of_ne_nil (pieces_ne_nil mark back)
    exact ⟨[], [], first, below, rfl, h, rfl⟩
  | cons c front ih =>
    obtain ⟨above, last, first, below, hfront, hall, hjoin⟩ := ih
    by_cases hc : c = mark
    · subst hc
      refine ⟨[] :: above, last, first, below, ?_, ?_, ?_⟩
      · rw [pieces_cons_mark, hfront]
        rfl
      · rw [List.cons_append, pieces_cons_mark, hall]
        rfl
      · rw [← hjoin]
        rfl
    · -- The character joins the first piece, which may be the last one as well.
      cases above with
      | nil =>
        refine ⟨[], c :: last, first, below, pieces_cons_of_ne hc hfront,
          pieces_cons_of_ne hc hall, ?_⟩
        rw [← hjoin]
        rfl
      | cons piece above =>
        refine ⟨(c :: piece) :: above, last, first, below, pieces_cons_of_ne hc hfront,
          pieces_cons_of_ne hc hall, ?_⟩
        rw [← hjoin]
        rfl

/-- The byte offset of a place in a text that is given by a line and by a column in it, both counted
from one: behind all lines above, each with its end, and behind the characters to the left. -/
def offsetAt? (s : Text) : (line column : Nat) → Option Nat
  | line + 1, column + 1 => do
    let lines := pieces '\n' s
    let l ← lines[line]?
    if column ≤ l.length then
      pure (byteSize ((lines.take line).flatMap (· ++ ['\n']) ++ l.take column))
    else none
  | _, _ => none

end Text

namespace Command

theorem charsBefore_append (front back : Text) :
    charsBefore front.byteSize (front ++ back) = front := by
  induction front with
  | nil => cases back <;> rfl
  | cons c front ih =>
    have hne : Text.byteSize (c :: front) ≠ 0 := by
      have := c.utf8Size_pos
      rw [Text.byteSize_cons]
      omega
    have hback : Text.byteSize (c :: front) - c.utf8Size = Text.byteSize front :=
      Nat.add_sub_cancel_left _ _
    rw [List.cons_append, charsBefore, if_neg hne, hback, ih]

/-- The position of an offset between two characters leads back to the offset. -/
theorem offsetAt?_position (front back : Text) :
    (front ++ back).offsetAt? (position (front ++ back) front.byteSize).1
      (position (front ++ back) front.byteSize).2 = some front.byteSize := by
  obtain ⟨above, last, first, below, hfront, hall, hjoin⟩ := Text.pieces_append '\n' front back
  have hposition :
      position (front ++ back) front.byteSize = (above.length + 1, last.length + 1) := by
    simp [position, charsBefore_append, hfront]
  have hbefore : ((above ++ (last ++ first) :: below).take above.length).flatMap (· ++ ['\n']) ++
      (last ++ first).take last.length = front := by
    rw [List.take_left, List.take_left, hjoin]
  have hline : (above ++ (last ++ first) :: below)[above.length]? = some (last ++ first) := by simp
  rw [hposition, Text.offsetAt?, hall, hline, Option.bind_eq_bind, Option.bind_some, hbefore]
  exact if_pos (by simp)

end Command

namespace Cursor
open Lexeme

variable {c d : Cursor} {source : Text}

theorem StandsIn.standsAt (hc : c.StandsIn source) (h : tagOpen <+: c.rest) :
    source.StandsAt tagOpen c.offset := by
  obtain ⟨before, rfl, hb⟩ := hc
  obtain ⟨tail, ht⟩ := h
  exact Text.standsAt_iff.2 ⟨before, tail, by rw [← ht, List.append_assoc], hb⟩

/-- Every kind of tag begins with the mark of tags. -/
theorem tagOpen_prefix_of_isTag {span : Text} (h : IsTag c.rest span) (hp : c.Passes span d) :
    tagOpen <+: c.rest := by
  obtain ⟨inner, rfl, -⟩ := h
  have hmarks : tagOpen <+: (marks c.rest).1 := by
    unfold marks
    split
    · exact ⟨['!', '-', '-'], rfl⟩
    · split
      · exact ⟨['{'], rfl⟩
      · exact List.prefix_rfl
  rw [hp.rest]
  exact (hmarks.trans (List.prefix_append _ _)).trans
    ((List.prefix_append _ _).trans (List.prefix_append _ _))

/-- A call reports a fault at the tag in front of the cursor. -/
theorem Outcome.standsAt_of_error {fault : TagFault} {offset : Nat}
    (h : Outcome c (.error (.tag fault offset)) d) (hc : c.StandsIn source) :
    source.StandsAt tagOpen offset := by
  cases h with
  | fault _ ht hp => exact hc.standsAt (tagOpen_prefix_of_isTag ht hp)
  | unterminatedTag ho _ => exact hc.standsAt ho
  | unterminatedComment ho =>
    exact hc.standsAt (List.IsPrefix.trans ⟨['!', '-', '-'], rfl⟩ ho)

theorem Outcome.standsAt_of_tag {l : Lexeme} (h : Outcome c (.ok (some l)) d)
    (hc : c.StandsIn source) (hl : l.token.isText = false) : source.StandsAt tagOpen l.offset := by
  cases h with
  | text _ _ _ => cases hl
  | tag _ hoffset ht hp =>
    rw [hoffset]
    exact hc.standsAt (tagOpen_prefix_of_isTag ht hp)

theorem StandsIn.next_error {fault : TagFault} {offset : Nat} (hc : c.StandsIn source)
    (h : c.next.1 = .error (.tag fault offset)) : source.StandsAt tagOpen offset := by
  have hn := next_outcome c
  rw [h] at hn
  exact hn.standsAt_of_error hc

theorem StandsIn.reaches {ls : List Lexeme} (hc : c.StandsIn source) (h : c.Reaches ls d) :
    d.StandsIn source := by
  induction h with
  | refl c => exact hc
  | step hn _ ih =>
    have hnext := hc.next
    rw [hn] at hnext
    exact ih hnext

theorem Scanned.standsAt {ls : List Lexeme} (h : Scanned c ls) (hc : c.StandsIn source) :
    ∀ l ∈ ls, l.token.isText = false → source.StandsAt tagOpen l.offset := by
  induction h with
  | done => simp
  | @step c _ _ _ hn _ ih =>
    have hnext := hc.next
    have houtcome := next_outcome c
    rw [hn] at hnext houtcome
    exact List.forall_mem_cons.2 ⟨houtcome.standsAt_of_tag hc, ih hnext⟩

end Cursor

namespace Lexeme

/-- Whitespace control leaves the tags alone. -/
theorem mem_of_mem_controlled {ls : List Lexeme} {before : Option Lexeme} {k : Lexeme}
    (h : k ∈ controlled before ls) (hk : k.token.isText = false) : k ∈ ls := by
  induction ls generalizing before with
  | nil => cases h
  | cons l ls ih =>
    rw [controlled, List.mem_append, Option.mem_toList] at h
    rcases h with h | h
    · have hl : l.token.isText = false := by rw [← between_isText h, hk]
      rw [between_of_tag hl] at h
      cases h
      exact List.mem_cons_self
    · exact List.mem_cons_of_mem l (ih h)

theorem standsAt_of_ofSource {source : Text} {ls : List Lexeme} (h : ofSource source = .ok ls) :
    ∀ l ∈ ls, l.token.isText = false → source.StandsAt tagOpen l.offset := by
  obtain ⟨raw, hraw, rfl⟩ := ofSource_eq_ok.1 h
  intro l hl ht
  exact hraw.standsAt ⟨[], rfl, rfl⟩ l (mem_of_mem_controlled hl ht) ht

theorem standsAt_of_ofSource_error {source : Text} {fault : TagFault} {offset : Nat}
    (h : ofSource source = .error (.tag fault offset)) : source.StandsAt tagOpen offset := by
  have hlexemes : (Cursor.start source).lexemes = .error (.tag fault offset) := by
    unfold ofSource at h
    cases hl : (Cursor.start source).lexemes with
    | error e =>
      rw [hl] at h
      cases h
      rfl
    | ok raw =>
      rw [hl] at h
      cases h
  obtain ⟨ls, d, hd, herror⟩ := Cursor.lexemes_eq_error.1 hlexemes
  have hstart : (Cursor.start source).StandsIn source := ⟨[], rfl, rfl⟩
  exact (hstart.reaches hd).next_error herror

end Lexeme

namespace OpenBlocks

variable {limit : Nat} {opened next : OpenBlocks} {l : Lexeme} {fault : TagFault} {offset : Nat}

/-- A step reports a fault at its own lexeme, which is a tag. -/
theorem offset_of_step_error (h : step limit opened l = .error (.tag fault offset)) :
    l.token.isText = false ∧ offset = l.offset := by
  unfold step at h
  split at h
  · cases h
  · split at h
    · cases h
    · split at h <;> cases h
  · next hl =>
    have ht : l.token.isText = false := by rw [hl]; rfl
    split at h
    · cases h
      exact ⟨ht, rfl⟩
    · split at h
      · cases h
      · cases h
        exact ⟨ht, rfl⟩
  · cases h

/-- A block that a step leaves open was open before, or is opened by the step's own lexeme. -/
theorem offset_of_step_ok (h : step limit opened l = .ok next) :
    ∀ b ∈ next, b ∈ opened ∨ (l.token.isText = false ∧ b.offset = l.offset) := by
  unfold step at h
  split at h
  · cases h
  · next hl =>
    split at h
    · cases h
    · split at h
      · cases h
      · cases h
        exact List.forall_mem_cons.2 ⟨.inr ⟨by rw [hl]; rfl, rfl⟩, fun b hb => .inl hb⟩
  · split at h
    · cases h
    · split at h
      · cases h
        exact fun b hb => .inl (List.mem_cons_of_mem _ hb)
      · cases h
  · cases h
    exact fun b hb => .inl hb

/-- The pass reports a fault at the offset of a tag: of one that it comes by, or of one that opened
a block before. -/
theorem offset_of_check_error {P : Nat → Prop} {ls : List Lexeme}
    (hls : ∀ l ∈ ls, l.token.isText = false → P l.offset) (hopened : ∀ b ∈ opened, P b.offset)
    (h : check limit opened ls = .error (.tag fault offset)) : P offset := by
  induction ls generalizing opened with
  | nil =>
    cases opened with
    | nil => cases h
    | cons b outer =>
      cases h
      exact hopened b List.mem_cons_self
  | cons l ls ih =>
    obtain ⟨hl, hls⟩ := List.forall_mem_cons.1 hls
    cases hstep : step limit opened l with
    | error e =>
      rw [check_of_fault hstep] at h
      cases h
      obtain ⟨ht, rfl⟩ := offset_of_step_error hstep
      exact hl ht
    | ok next =>
      rw [check_of_step hstep] at h
      refine ih hls (fun b hb => ?_) h
      rcases offset_of_step_ok hstep b hb with hb | ⟨ht, hb⟩
      · exact hopened b hb
      · rw [hb]
        exact hl ht

end OpenBlocks

namespace Parser

variable {source : Text} {limit : Nat} {p : Parser}

/-- All that a parser still has to read comes from the template. -/
theorem after_pending_suffix (ls : List Lexeme) (calls : Nat) :
    ((mk ls limit).after calls).pending <:+ ls := by
  induction calls with
  | zero => exact List.suffix_rfl
  | succ calls ih =>
    rw [after, after_fresh]
    exact (parse_cases limit _).1.trans ih

theorem exists_lexemes_of_ofSource (h : ofSource source limit = .ok p) :
    ∃ ls, Lexeme.ofSource source = .ok ls ∧ p = mk ls limit := by
  unfold ofSource at h
  cases hs : Lexeme.ofSource source with
  | error e =>
    rw [hs] at h
    cases h
  | ok ls =>
    rw [hs] at h
    cases h
    exact ⟨ls, rfl, rfl⟩

theorem standsAt_of_parse_error {fault : TagFault} {offset : Nat}
    (h : ofSource source limit = .ok p) (calls : Nat)
    (herror : (p.after calls).parse.1 = .error (.tag fault offset)) :
    source.StandsAt Lexeme.tagOpen offset := by
  obtain ⟨ls, hls, rfl⟩ := exists_lexemes_of_ofSource h
  rw [after_fresh, parse_eq_error_iff] at herror
  refine OpenBlocks.offset_of_check_error (fun l hl => ?_) (by simp) herror
  exact Lexeme.standsAt_of_ofSource hls l ((after_pending_suffix ls calls).subset hl)

end Parser

/-- The errors that a template can be refused with: by a cursor in it or a parser of it, however
often either is asked, when all its lexemes are read, or when its tree is. -/
inductive Reported (source : Text) : Error → Prop
  | next {e : Error} (calls : Nat) :
    ((Cursor.start source).after calls).next.1 = .error e → Reported source e
  | lexemes {e : Error} : Lexeme.ofSource source = .error e → Reported source e
  | parse {e : Error} {limit : Nat} {p : Parser} (calls : Nat) :
    Parser.ofSource source limit = .ok p → (p.after calls).parse.1 = .error e → Reported source e
  | tree {e : Error} {limit : Nat} : Node.ofSource source limit = .error e → Reported source e

theorem Reported.standsAt {source : Text} {fault : TagFault} {offset : Nat}
    (h : Reported source (.tag fault offset)) : source.StandsAt Lexeme.tagOpen offset := by
  cases h with
  | next calls h =>
    have hstart : (Cursor.start source).StandsIn source := ⟨[], rfl, rfl⟩
    exact (hstart.results?_eq calls).2.next_error h
  | lexemes h => exact Lexeme.standsAt_of_ofSource_error h
  | parse calls hp h => exact Parser.standsAt_of_parse_error hp calls h
  | tree h =>
    rw [Node.ofSource_eq_error_iff] at h
    cases hs : Lexeme.ofSource source with
    | error e =>
      rw [hs] at h
      cases h
      exact Lexeme.standsAt_of_ofSource_error hs
    | ok ls =>
      rw [hs] at h
      exact OpenBlocks.offset_of_check_error (Lexeme.standsAt_of_ofSource hs) (by simp) h

/-- Faults of tags point at a tag and are located exactly. Whatever refuses a template, the offset
of the fault lies between two characters, before the end, and the template goes on there with the
mark that opens a tag. The text in front of it can be cut out, and the line and the column printed
for it are those of the place: in the lines of the template, that place in that line is at the
offset, and no other offset between two characters has this position. -/
theorem reported_located {source : Text} {fault : TagFault} {offset : Nat}
    (h : Reported source (.tag fault offset)) (path : Text) (wording : Command.Wording) :
    (source.StandsAt Lexeme.tagOpen offset ∧ offset < source.byteSize) ∧
    source.slice? 0 offset = some (Command.charsBefore offset source) ∧
    ∃ line column,
      (Command.Failure.template path source (.tag fault offset)).chain wording =
        [path ++ ':' :: Error.decimal line ++ ':' :: Error.decimal column,
          (Error.tag fault offset).message] ∧
      source.offsetAt? line column = some offset ∧
      ∀ n, (source.splitAt? n).isSome → Command.position source n = (line, column) →
        n = offset := by
  have hstands := h.standsAt
  obtain ⟨front, back, hsource, rfl⟩ := Text.standsAt_iff.1 hstands
  rw [List.append_assoc] at hsource
  subst hsource
  refine ⟨⟨hstands, ?_⟩, ?_, _, _, rfl, Command.offsetAt?_position front _, ?_⟩
  · have hmark : 0 < Text.byteSize (Lexeme.tagOpen ++ back) :=
      Text.byteSize_pos (by simp [Lexeme.tagOpen])
    rw [Text.byteSize_append]
    omega
  · rw [Command.charsBefore_append]
    exact Text.slice?_zero front _
  · intro n hn hposition
    obtain ⟨⟨before, after⟩, hsplit⟩ := Option.isSome_iff_exists.1 hn
    obtain ⟨hsource, rfl⟩ := Text.splitAt?_eq_some.1 hsplit
    have hhere := Command.offsetAt?_position before after
    rw [← hsource, hposition] at hhere
    have hthere := Command.offsetAt?_position front (Lexeme.tagOpen ++ back)
    exact Option.some.inj (hhere.symm.trans hthere)

/-- A block on the second line that is never closed, behind characters of two and of four bytes. -/
theorem reported_located_unclosed :
    let source : Text := "é\nb😀".toList ++ TagFault.tagged '#' "if a".toList ++ ['x']
    let e := Error.tag (.unclosedBlock "if".toList) 8
    Node.ofSource source 1 = .error e ∧
    (source.StandsAt Lexeme.tagOpen 8 ∧ 8 < source.byteSize) ∧
    source.slice? 0 8 = some "é\nb😀".toList ∧
    (Command.Failure.template ['t'] source e).chain {} = ["t:2:3".toList, e.message] ∧
    source.offsetAt? 2 3 = some 8 := by
  intro source e
  have h : Node.ofSource source 1 = .error e :=
    Node.ofSource_eq_error_iff.2 (by decide +kernel)
  obtain ⟨hstands, hslice, -⟩ := reported_located (.tree h) ['t'] {}
  exact ⟨h, hstands, hslice, by decide +kernel, by decide +kernel⟩

end HandlebarsToTwig
