import DeltaPack.Precoded.Summary.Json
import DeltaPack.Proofs.Json.Object
import Mathlib.Data.List.Permutation

/-!
# Summaries read back

A summary whose numbers fit in 64 bits (`Summary.Fits`) is spelled by every document with its tokens
and with its members in any order (`Summary.Spells`), and is read from each of them
(`Summary.ofJson_of_spells`). `Summary.draft` is what is known of a summary when some of its members
were read: each member adds itself, and when all have been read nothing is missing.
-/

namespace DeltaPack.Precoded

open Json Json.Reader

/-! ### Spellings -/

/-- The tokens of tag counts. -/
def TagCounts.tokens (counts : TagCounts) : List Token :=
  [.mark .openBracket, .integer counts.common, .mark .comma, .integer counts.one, .mark .comma,
    .integer counts.two, .mark .comma, .integer counts.four, .mark .closeBracket]

/-- The tokens of a member's value. -/
def Summary.fieldTokens (summary : Summary) : Field → List Token
  | .count => [.integer summary.count]
  | .common => [.integer summary.common.toInt]
  | .tagCounts => summary.tagCounts.tokens
  | .tagBytes => [.integer summary.tagBytes]
  | .residualBytes => [.integer summary.residualBytes]
  | .totalSize => [.integer summary.totalSize]

/-- A member, given by its key and the tokens of its value. -/
def Summary.entry (summary : Summary) (field : Field) : String × List Token :=
  (field.name, summary.fieldTokens field)

/-- A document **spells** a summary: its tokens are those of the summary, with members in any order
and with any blanks between tokens. -/
def Summary.Spells (summary : Summary) (document : List UInt8) : Prop :=
  ∃ tokens, Token.IsObject (Field.all.map summary.entry) tokens ∧ Spaced tokens document

/-- Tag counts in 64 bits. -/
structure TagCounts.Fits (counts : TagCounts) : Prop where
  common : counts.common < 2 ^ 64
  one : counts.one < 2 ^ 64
  two : counts.two < 2 ^ 64
  four : counts.four < 2 ^ 64

/-- A summary whose numbers are in 64 bits. -/
structure Summary.Fits (summary : Summary) : Prop where
  count : summary.count < 2 ^ 64
  tagCounts : summary.tagCounts.Fits
  tagBytes : summary.tagBytes < 2 ^ 64
  residualBytes : summary.residualBytes < 2 ^ 64
  totalSize : summary.totalSize < 2 ^ 64

/-- Tag counts are written token by token. -/
theorem TagCounts.toJson_eq (counts : TagCounts) :
    counts.toJson = counts.tokens.flatMap Token.bytes := by
  rw [toJson]
  simp only [List.append_assoc]
  rfl

theorem Summary.fieldJson_eq (summary : Summary) (field : Field) :
    summary.fieldJson field = (summary.fieldTokens field).flatMap Token.bytes := by
  cases field with
  | tagCounts => exact summary.tagCounts.toJson_eq
  | _ => exact (List.append_nil _).symm

/-- A summary is spelled by its own text. -/
theorem Summary.spells_toJson (summary : Summary) : summary.Spells summary.toJson := by
  have hmember (field : Field) :
      (Token.member (summary.entry field)).flatMap Token.bytes = summary.memberJson field := by
    rw [entry, Token.flatMap_bytes_member, memberJson, fieldJson_eq]
  have htext : summary.toJson =
      (Token.object (Field.all.map summary.entry)).flatMap Token.bytes := by
    rw [toJson, Token.flatMap_bytes_object, List.map_map, List.map_congr_left fun field _ =>
      (hmember field).symm]
    rfl
  refine ⟨_, ⟨_, .refl _, rfl⟩, ?_⟩
  rw [htext]
  exact spaced_flatMap_bytes _

/-! ### Values of members -/

/-- A size is no end of a list. -/
theorem exists_first?_size (n : Nat) : ∃ c, (Token.integer n).first? = some c ∧ c ≠ ']' := by
  obtain ⟨c, hdigit, hfirst⟩ := Token.exists_first?_natural n
  refine ⟨c, hfirst, ?_⟩
  rintro rfl
  exact absurd hdigit (by decide)

section Elements

variable {n : Nat} (h : n < 2 ^ 64) (expected : String) (m : Mark) (following : List Token)

include h

theorem takes_sizeAt_zero :
    Takes (elementAt 0 expected size) (Spaced (.integer n :: .mark m :: following)) n
      (Spaced (.mark m :: following)) := by
  obtain ⟨c, hfirst, hc⟩ := exists_first?_size n
  exact takes_elementAt_zero (reads_size h) hfirst hc expected m following

theorem takes_sizeAt_succ (index : Nat) :
    Takes (elementAt (index + 1) expected size)
      (Spaced (.mark .comma :: .integer n :: .mark m :: following)) n
      (Spaced (.mark m :: following)) := by
  obtain ⟨c, hfirst, hc⟩ := exists_first?_size n
  exact takes_elementAt_succ (reads_size h) hfirst hc expected m following index

end Elements

/-- **Tag counts are read back** from their list. -/
theorem TagCounts.reads_read {counts : TagCounts} (h : counts.Fits) (levels : Nat) :
    Reads (read (levels + 1)) counts.tokens counts := by
  intro m following
  refine ((takes_found_openBracket _).bind ?_).placed
  refine (takes_skip .openBracket _).bind ?_
  refine .andAlways ?_ (takes_endList (.mark m :: following))
  refine (takes_sizeAt_zero h.common _ .comma _).bind ?_
  refine (takes_sizeAt_succ h.one _ .comma _ 0).bind ?_
  refine (takes_sizeAt_succ h.two _ .comma _ 1).bind ?_
  refine (takes_sizeAt_succ h.four _ .closeBracket _ 2).bind ?_
  exact .pure _ _

/-! ### Drafts -/

/-- What is known of a summary from some of its members. -/
def Summary.draft (summary : Summary) (known : List Field) : Draft where
  count := if .count ∈ known then some summary.count else none
  common := if .common ∈ known then some summary.common else none
  tagCounts := if .tagCounts ∈ known then some summary.tagCounts else none
  tagBytes := if .tagBytes ∈ known then some summary.tagBytes else none
  residualBytes := if .residualBytes ∈ known then some summary.residualBytes else none
  totalSize := if .totalSize ∈ known then some summary.totalSize else none

/-- Nothing is missing when all members are known. -/
theorem Summary.complete_draft (summary : Summary) {known : List Field}
    (h : ∀ field, field ∈ known) : (summary.draft known).complete = .ok summary := by
  simp only [draft, h, if_true]
  rfl

section Field

variable {β : Type} {body : Reader β} {value : List Token} {b : β} {earlier : Option β}

/-- The value of a member, with what it adds to a draft. -/
theorem takes_field (h : Reads body value b) (name : String) (hnone : earlier = none)
    {set : Option β → Draft} {after : Draft} (hset : set (some b) = after) (m : Mark)
    (following : List Token) :
    Takes (do let b ← once name earlier body; return set b)
      (Spaced (.mark .colon :: value ++ .mark m :: following)) after
      (Spaced (.mark m :: following)) := by
  subst hnone hset
  exact (takes_once h name m following).bind (.pure _ _)

end Field

/-- **Each member adds itself** to a draft that lacks it. -/
theorem Summary.readsMember {summary : Summary} (h : summary.Fits) (levels : Nat)
    {known : List Field} {field : Field} (hfield : field ∉ known) :
    ReadsMember (Draft.readMember (levels + 1)) (summary.draft known) (summary.entry field)
      (summary.draft (field :: known)) := by
  intro m following
  have hplain : (Text.ascii field.name).all isPlain = true := by cases field <;> rfl
  have hkey : Field.ofKey? (Text.ascii field.name) = some field := by cases field <;> rfl
  refine (takes_key hplain _).bind ?_
  simp only [entry, hkey]
  cases field with
  | count =>
    exact takes_field (reads_size h.count) _ (if_neg hfield) (by simp [draft]) m following
  | common => exact takes_field (reads_int32 _) _ (if_neg hfield) (by simp [draft]) m following
  | tagCounts =>
    have hread := TagCounts.reads_read h.tagCounts levels
    exact takes_field hread _ (if_neg hfield) (by simp [draft]) m following
  | tagBytes =>
    exact takes_field (reads_size h.tagBytes) _ (if_neg hfield) (by simp [draft]) m following
  | residualBytes =>
    exact takes_field (reads_size h.residualBytes) _ (if_neg hfield) (by simp [draft]) m following
  | totalSize =>
    exact takes_field (reads_size h.totalSize) _ (if_neg hfield) (by simp [draft]) m following

/-- Different members, one after the other, leave a draft with all of them. -/
theorem Summary.folds_readMember {summary : Summary} (h : summary.Fits) (levels : Nat)
    {known fields : List Field} (hfields : fields.Nodup)
    (hknown : ∀ field ∈ fields, field ∉ known) :
    Folds (Draft.readMember (levels + 1)) (summary.draft known) (fields.map summary.entry)
      (summary.draft (fields.reverse ++ known)) := by
  induction fields generalizing known with
  | nil => exact .nil _
  | cons field fields ih =>
    obtain ⟨hfield, hothers⟩ := List.nodup_cons.1 hfields
    obtain ⟨hlacks, hknown⟩ := List.forall_mem_cons.1 hknown
    have hnext : ∀ other ∈ fields, other ∉ field :: known := by
      intro other hother hmem
      rcases List.mem_cons.1 hmem with rfl | hmem
      · exact hfield hother
      · exact hknown other hother hmem
    rw [List.reverse_cons, List.append_assoc, List.singleton_append]
    exact .cons (readsMember h levels hlacks) (ih hothers hnext)

/-- Members in any order are the members of some order of the fields. -/
theorem Summary.exists_fields_of_perm {summary : Summary} {order : List (String × List Token)}
    (h : order.Perm (Field.all.map summary.entry)) :
    ∃ fields : List Field, fields.Perm Field.all ∧ order = fields.map summary.entry := by
  have hmem := List.mem_permutations.2 h
  rw [← List.map_permutations] at hmem
  obtain ⟨fields, hfields, rfl⟩ := List.mem_map.1 hmem
  exact ⟨fields, List.mem_permutations.1 hfields, rfl⟩

/-! ### Documents -/

/-- **A summary is read from each of its spellings.** -/
theorem Summary.ofJson_of_spells {summary : Summary} (h : summary.Fits) {document : List UInt8}
    (hdocument : summary.Spells document) : ofJson document = .ok summary := by
  obtain ⟨tokens, ⟨order, hperm, rfl⟩, hspaced⟩ := hdocument
  obtain ⟨fields, hfields, rfl⟩ := exists_fields_of_perm hperm
  have hnodup : fields.Nodup := hfields.nodup_iff.2 (by decide)
  have hall (field : Field) : field ∈ fields.reverse ++ [] := by
    rw [List.append_nil, List.mem_reverse, hfields.mem_iff]
    cases field <;> decide
  have hnone : ∀ field ∈ fields, field ∉ ([] : List Field) := fun _ _ => List.not_mem_nil
  have hfolds := folds_readMember h 125 hnodup hnone
  have hmembers : Takes (readMembers 126)
      (Spaced ([Token.mark .comma].intercalate ((fields.map summary.entry).map Token.member) ++
        [.mark .closeBrace])) summary (Flush (.mark .closeBrace) []) := by
    refine (takes_members hfolds []).bind ?_
    exact .lift (summary.complete_draft hall) _
  have hread : Takes (record maxLevels "struct PrecodeStats" readElements readMembers)
      (Spaced (Token.object (fields.map summary.entry) ++ [])) summary (Spaced []) :=
    takes_record 126 _ hmembers
  rw [List.append_nil] at hread
  exact readAll_of_takes hread hspaced

end DeltaPack.Precoded
