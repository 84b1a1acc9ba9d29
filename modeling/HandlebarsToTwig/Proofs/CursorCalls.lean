import HandlebarsToTwig.Proofs.Scanner
import HandlebarsToTwig.Proofs.Shift
import Mathlib.Logic.Function.Iterate

/-! A cursor that is asked for lexemes again and again. A call passes a lexeme, or a tag with a
fault in its content, or it leaves the cursor where it is, and then all later calls do the same. -/
namespace HandlebarsToTwig

namespace Lexeme

/-- The marks of the tag that a text begins with. -/
def marks (s : Text) : Text × Text :=
  if commentOpen.isPrefixOf s then (commentOpen, commentClose)
  else if rawOpen.isPrefixOf s then (rawOpen, rawClose)
  else (tagOpen, tagClose)

/-- `span` is the tag that the text begins with: it ends with the first closing mark behind the
opening one. -/
def IsTag (s span : Text) : Prop :=
  ∃ inner, span = (marks s).1 ++ inner ++ (marks s).2 ∧
    ¬ (marks s).2 <:+: inner ++ (marks s).2.dropLast

/-- The faults in the content of a tag. -/
def contentFaults : List TagFault := [.emptyTag, .namelessBlock, .namelessClose]

/-- What the content of a tag can be read as: a token that is no text, or one of the faults. -/
def IsVerdict : Except TagFault Token → Prop
  | .ok token => token.isText = false
  | .error fault => fault ∈ contentFaults

theorem classify_isVerdict (content : Text) : IsVerdict (classify content) := by
  cases content with
  | nil => simp [classify, IsVerdict, contentFaults]
  | cons sigil s =>
    simp only [classify]
    split
    · rfl
    · split
      · simp [IsVerdict, contentFaults]
      · rfl
    · split
      · simp [IsVerdict, contentFaults]
      · rfl
    · simp only [IsVerdict]
      split <;> rfl
    · rfl
    · rfl
    · split <;> rfl

end Lexeme

namespace Cursor
open Lexeme

/-- What a call at the cursor `c` can come to, and the cursor it leaves. -/
inductive Outcome (c : Cursor) : (result : Except Error (Option Lexeme)) → (d : Cursor) → Prop
  | ended : c.rest = [] → Outcome c (.ok none) c
  | text {value : Text} {d : Cursor} :
    IsPlain value → d.rest = [] ∨ tagOpen <+: d.rest → c.Passes value d →
    Outcome c (.ok (some ⟨.text value, c.offset, false, false⟩)) d
  | tag {l : Lexeme} {span : Text} {d : Cursor} :
    l.token.isText = false → l.offset = c.offset → IsTag c.rest span → c.Passes span d →
    Outcome c (.ok (some l)) d
  | fault {fault : TagFault} {span : Text} {d : Cursor} :
    fault ∈ contentFaults → IsTag c.rest span → c.Passes span d →
    Outcome c (.error (.tag fault c.offset)) d
  | unterminatedTag : tagOpen <+: c.rest → (∀ span, IsTag c.rest span → ¬ span <+: c.rest) →
    Outcome c (.error (.tag .unterminatedTag c.offset)) c
  | unterminatedComment : commentOpen <+: c.rest →
    Outcome c (.error (.tag .unterminatedComment c.offset)) c

variable {c : Cursor}

theorem comment_outcome (h : commentOpen <+: c.rest) :
    Outcome c (c.comment.1.map some) c.comment.2 := by
  have hmarks : marks c.rest = (commentOpen, commentClose) :=
    if_pos (List.isPrefixOf_iff_prefix.2 h)
  rcases comment_of_commentOpen h with ⟨hcomment, -⟩ | ⟨body, rest, hcut, hcomment⟩
  · rw [hcomment]
    exact .unterminatedComment h
  · obtain ⟨hrest, hfirst⟩ := (Text.cut?_eq_some (by simp [commentClose])).1 hcut
    have htag : IsTag c.rest (commentOpen ++ body ++ commentClose) := by
      refine ⟨body, by rw [hmarks], ?_⟩
      rw [hmarks]
      intro hinfix
      apply hfirst
      rw [List.append_assoc]
      exact hinfix.trans (List.suffix_append commentOpen _).isInfix
    rw [hcomment]
    exact .tag rfl rfl htag (passes_past (by simp [commentOpen]) hrest)

theorem enclosed_outcome {opener closer : Text} {classify : Text → Except TagFault Token}
    (hmarks : marks c.rest = (opener, closer)) (h : opener <+: c.rest) (ho : tagOpen <+: c.rest)
    (hne : closer ≠ []) (hverdict : ∀ content, IsVerdict (classify content)) :
    Outcome c ((c.enclosed opener closer classify).1.map some)
      (c.enclosed opener closer classify).2 := by
  obtain ⟨tail, htail⟩ := h
  unfold enclosed
  rw [← htail, List.drop_left]
  cases hcut : Text.cut? closer tail with
  | none =>
    refine .unterminatedTag ho ?_
    rintro span ⟨inner, rfl, -⟩ ⟨after, hafter⟩
    rw [hmarks, ← htail, List.append_assoc, List.append_assoc] at hafter
    refine Text.cut?_eq_none.1 hcut ⟨inner, after, ?_⟩
    rw [← List.append_cancel_left hafter, List.append_assoc]
  | some cut =>
    obtain ⟨inner, rest⟩ := cut
    obtain ⟨rfl, hfirst⟩ := (Text.cut?_eq_some hne).1 hcut
    have htag : IsTag c.rest (opener ++ inner ++ closer) := ⟨inner, by rw [hmarks], by rwa [hmarks]⟩
    have hpasses :
        c.Passes (opener ++ inner ++ closer) (c.past (opener ++ inner ++ closer) rest) := by
      refine passes_past (by simp [hne]) ?_
      rw [← htail]
      simp only [List.append_assoc]
    have hv := hverdict (Interior.ofText inner).content
    cases hc : classify (Interior.ofText inner).content with
    | ok token =>
      rw [hc] at hv
      simp only [hc]
      exact .tag hv rfl htag hpasses
    | error fault =>
      rw [hc] at hv
      simp only [hc]
      exact .fault hv htag hpasses

theorem tag_outcome (h : tagOpen <+: c.rest) : Outcome c (c.tag.1.map some) c.tag.2 := by
  unfold tag
  split
  · next hw => exact comment_outcome (List.isPrefixOf_iff_prefix.1 hw)
  · next hcomment =>
    split
    · next hw =>
      have hmarks : marks c.rest = (rawOpen, rawClose) := by simp only [marks, hcomment, hw]; rfl
      exact enclosed_outcome hmarks (List.isPrefixOf_iff_prefix.1 hw) h (by simp [rawClose])
        fun _ => rfl
    · next hw =>
      have hmarks : marks c.rest = (tagOpen, tagClose) := by simp only [marks, hcomment, hw]; rfl
      exact enclosed_outcome hmarks h h (by simp [tagClose]) classify_isVerdict

theorem next_outcome (c : Cursor) : Outcome c c.next.1 c.next.2 := by
  unfold next
  split
  · next he => exact .ended (List.isEmpty_iff.1 he)
  · next hne =>
    split
    · next rest hcut => exact tag_outcome ⟨rest, (Text.cut?_eq_some_nil.1 hcut).symm⟩
    · next value rest hvalue hcut =>
      obtain ⟨hrest, hfirst⟩ := (Text.cut?_eq_some (by simp [tagOpen])).1 hcut
      have hplain : IsPlain value :=
        ⟨hvalue, fun hi => hfirst (hi.trans (List.prefix_append value _).isInfix)⟩
      rw [List.append_assoc] at hrest
      exact .text hplain (.inr (List.prefix_append tagOpen rest)) (passes_past hvalue hrest)
    · next hcut =>
      have hne : c.rest ≠ [] := fun h => hne (List.isEmpty_iff.2 h)
      exact .text ⟨hne, Text.cut?_eq_none.1 hcut⟩ (.inl rfl)
        (passes_past hne (List.append_nil c.rest).symm)

/-- A call that does not pass anything leaves the cursor in place. -/
theorem Outcome.passes_or_eq {result : Except Error (Option Lexeme)} {d : Cursor}
    (h : Outcome c result d) : (∃ span, c.Passes span d) ∨ d = c := by
  cases h with
  | ended _ | unterminatedTag _ _ | unterminatedComment _ => exact .inr rfl
  | text _ _ hp | tag _ _ _ hp | fault _ _ hp => exact .inl ⟨_, hp⟩

/-- The cursor after a number of calls. -/
def after (c : Cursor) (calls : Nat) : Cursor := (fun c : Cursor => c.next.2)^[calls] c

/-- What a number of calls return, one after the other. -/
def results (c : Cursor) : (calls : Nat) → List (Except Error (Option Lexeme))
  | 0 => []
  | calls + 1 => c.next.1 :: c.next.2.results calls

/-- Calls that start further on return the same with their offsets shifted. -/
theorem results_shift (n : Nat) (c : Cursor) (calls : Nat) :
    (c.shift n).results calls =
      (c.results calls).map (shifted n (Option.map (Lexeme.shift n))) := by
  induction calls generalizing c with
  | zero => rfl
  | succ calls ih => rw [results, results, next_shift, ih, List.map_cons]

theorem results_add (c : Cursor) (calls more : Nat) :
    c.results (calls + more) = c.results calls ++ (c.after calls).results more := by
  induction calls generalizing c with
  | zero => rw [Nat.zero_add, results, List.nil_append, after, Function.iterate_zero, id]
  | succ calls ih =>
    rw [Nat.succ_add, results, results, ih, List.cons_append]
    rfl

/-- A cursor that a call leaves in place stays there. -/
theorem after_of_next_eq (h : c.next.2 = c) (calls : Nat) : c.after calls = c :=
  Function.iterate_fixed h calls

theorem results_of_next_eq (h : c.next.2 = c) (calls : Nat) :
    c.results calls = List.replicate calls c.next.1 := by
  induction calls with
  | zero => rfl
  | succ calls ih => rw [results, h, ih, List.replicate_succ]

/-- Every call takes a byte at least, as long as the cursor moves. -/
theorem after_cases (c : Cursor) (calls : Nat) :
    (c.after calls).next.2 = c.after calls ∨
      (c.after calls).rest.byteSize + calls ≤ c.rest.byteSize := by
  induction calls generalizing c with
  | zero => exact .inr (Nat.le_refl _)
  | succ calls ih =>
    have hstep : c.after (calls + 1) = c.next.2.after calls := rfl
    rcases (next_outcome c).passes_or_eq with ⟨span, hp⟩ | heq
    · rw [hstep]
      apply (ih c.next.2).imp_right
      intro hle
      have hpos := Text.byteSize_pos hp.nonempty
      have hsize : c.rest.byteSize = span.byteSize + c.next.2.rest.byteSize := by
        rw [hp.rest, Text.byteSize_append]
      omega
    · left
      rw [after_of_next_eq heq, heq]

/-- After as many calls as there are bytes, the cursor does not move any more. -/
theorem next_after_byteSize (c : Cursor) :
    (c.after c.rest.byteSize).next.2 = c.after c.rest.byteSize := by
  rcases after_cases c c.rest.byteSize with heq | hle
  · exact heq
  · rcases (next_outcome (c.after c.rest.byteSize)).passes_or_eq with ⟨span, hp⟩ | heq
    · have hpos := Text.byteSize_pos hp.nonempty
      have hsize := congrArg Text.byteSize hp.rest
      rw [Text.byteSize_append] at hsize
      omega
    · exact heq

end Cursor

/-- What a number of calls return by offsets; none if one of them cuts out a part of the template
that does not exist. -/
def Scanner.results? (s : Scanner) :
    (calls : Nat) → Option (List (Except Error (Option Lexeme)) × Scanner)
  | 0 => some ([], s)
  | calls + 1 => do
    let (result, s) ← s.next?
    let (results, s) ← s.results? calls
    pure (result :: results, s)

namespace Cursor
open Lexeme

theorem StandsIn.next {c : Cursor} {source : Text} (h : c.StandsIn source) :
    c.next.2.StandsIn source := by
  rcases (next_outcome c).passes_or_eq with ⟨span, hp⟩ | heq
  · exact hp.standsIn h
  · rwa [heq]

/-- Whatever a number of calls cut out of the template exists. -/
theorem StandsIn.results?_eq {c : Cursor} {source : Text} (h : c.StandsIn source) (calls : Nat) :
    (c.inSource source).results? calls =
        some (c.results calls, (c.after calls).inSource source) ∧
      (c.after calls).StandsIn source := by
  induction calls generalizing c with
  | zero => exact ⟨rfl, h⟩
  | succ calls ih =>
    obtain ⟨hresults, hafter⟩ := ih h.next
    refine ⟨?_, hafter⟩
    simp only [Scanner.results?, h.next?_eq, Option.bind_eq_bind, Option.bind_some, hresults]
    rfl

/-- Reading makes progress or is stuck for good, for every template and every number of calls. No
part that is cut out by offsets fails to exist. A call returns a lexeme or a fault in the content of
a tag and goes just past it, or it returns nothing or that a tag or comment is unterminated, and
stays. All later results are those of the rest of the template as a template of its own, with the
offsets shifted; a call that stays is repeated for ever. After as many calls as the template has
bytes, the results are all the same. -/
theorem results_progress (source : Text) (calls : Nat) :
    let c := (start source).after calls
    let d := c.next.2
    (Scanner.mk source 0).results? calls =
      some ((start source).results calls, ⟨source, c.offset⟩) ∧
    (start source).results (calls + 1) = (start source).results calls ++ [c.next.1] ∧
    c.Outcome c.next.1 d ∧
    (source.from? d.offset = some d.rest ∧ ∀ more, (start source).results (calls + 1 + more) =
      (start source).results (calls + 1) ++ ((start d.rest).results more).map
        (shifted d.offset (Option.map (Lexeme.shift d.offset)))) ∧
    (d = c → ∀ more, (start source).results (calls + more) =
      (start source).results calls ++ List.replicate more c.next.1) ∧
    ∃ result, ∀ more, (start source).results (source.byteSize + more) =
      (start source).results source.byteSize ++ List.replicate more result := by
  intro c d
  have hstart : (start source).StandsIn source := ⟨[], rfl, rfl⟩
  obtain ⟨hresults, hc⟩ := hstart.results?_eq calls
  have hd : (start source).after (calls + 1) = d := Function.iterate_succ_apply' _ _ _
  refine ⟨hresults, results_add _ calls 1, next_outcome c, ⟨hc.next.rest?_eq, ?_⟩, ?_, ?_⟩
  · intro more
    have hshift : (start d.rest).shift d.offset = d := by
      rw [shift, start, Nat.zero_add]
    rw [results_add, hd, ← results_shift, hshift]
  · intro hstay more
    rw [results_add, results_of_next_eq hstay]
  · have hstay := next_after_byteSize (start source)
    refine ⟨((start source).after source.byteSize).next.1, fun more => ?_⟩
    rw [results_add]
    exact congrArg _ (results_of_next_eq hstay more)

/-- A text, an empty tag that is passed, and a tag without an end that is not. -/
example : (start (['a'] ++ tagOpen ++ tagClose ++ tagOpen)).results 4 =
    [.ok (some ⟨.text ['a'], 0, false, false⟩), .error (.tag .emptyTag 1),
      .error (.tag .unterminatedTag 5), .error (.tag .unterminatedTag 5)] := by
  rfl

end Cursor

end HandlebarsToTwig
