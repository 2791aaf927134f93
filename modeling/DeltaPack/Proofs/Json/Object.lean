import DeltaPack.Proofs.Json.Scalar

/-!
# Lists and objects read back

The members of an object are read one after the other, each from its key on, and every one of them
changes the state of the reader. `Folds` is the sequence of these states. An object may have as many
members as it likes: the reader counts with the bytes it has, and every member takes some
(`takes_members`).

A list of known length is read element by element (`takes_elementAt_zero`,
`takes_elementAt_succ`).
-/

namespace DeltaPack.Json

namespace Token

/-- The members behind the first, each with the comma in front of it. -/
def moreMembers (entries : List (String × List Token)) : List Token :=
  entries.flatMap fun entry => mark .comma :: member entry

theorem intercalate_member (entry : String × List Token) (entries : List (String × List Token)) :
    [mark .comma].intercalate ((entry :: entries).map member) =
      member entry ++ moreMembers entries := by
  induction entries generalizing entry with
  | nil => rw [List.map_singleton, List.intercalate_singleton, moreMembers, List.flatMap_nil,
      List.append_nil]
  | cons next entries ih =>
    have hnext := ih next
    rw [List.map_cons] at hnext ⊢
    rw [List.map_cons, List.intercalate_cons_cons, hnext, moreMembers, moreMembers,
      List.flatMap_cons, List.cons_append, List.append_assoc, List.singleton_append]

theorem length_le_length_moreMembers (entries : List (String × List Token)) :
    entries.length ≤ (moreMembers entries).length := by
  induction entries with
  | nil => exact Nat.zero_le _
  | cons entry entries ih =>
    rw [moreMembers] at ih ⊢
    rw [List.flatMap_cons, List.length_append, List.length_cons, List.length_cons]
    omega

/-- Behind a member there is a mark, either way. -/
theorem exists_moreMembers_eq (entries : List (String × List Token)) (m : Mark)
    (tokens : List Token) :
    ∃ next following, moreMembers entries ++ mark m :: tokens = mark next :: following := by
  cases entries with
  | nil => exact ⟨m, tokens, rfl⟩
  | cons entry entries => exact ⟨.comma, _, rfl⟩

end Token

namespace Reader

open Token (member moreMembers)

variable {α : Type}

/-! ### Marks -/

theorem takes_colon (tokens : List Token) :
    Takes colon (Spaced (.mark .colon :: tokens)) () (Spaced tokens) :=
  (takes_token?_mark .colon tokens).bind (takes_skip .colon tokens)

theorem takes_endObject (tokens : List Token) :
    Takes endObject (Spaced (.mark .closeBrace :: tokens)) () (Spaced tokens) :=
  (takes_token?_mark .closeBrace tokens).bind (takes_skip .closeBrace tokens)

theorem takes_endList (tokens : List Token) :
    Takes endList (Spaced (.mark .closeBracket :: tokens)) () (Spaced tokens) :=
  (takes_token?_mark .closeBracket tokens).bind (takes_skip .closeBracket tokens)

/-- The first member follows at once. -/
theorem takes_nextMember_first (key : String) (tokens : List Token) :
    Takes (nextMember true) (Spaced (.string key :: tokens)) true (Flush (.string key) tokens) :=
  (takes_token?_of_first? (Token.first?_string key) tokens).bind (.pure _ _)

/-- A further member follows behind a comma. -/
theorem takes_nextMember_comma (key : String) (tokens : List Token) :
    Takes (nextMember false) (Spaced (.mark .comma :: .string key :: tokens)) true
      (Flush (.string key) tokens) := by
  refine (takes_token?_mark .comma _).bind ?_
  refine (takes_skip .comma _).bind ?_
  exact (takes_token?_of_first? (Token.first?_string key) tokens).bind (.pure _ _)

/-- The brace of an object ends its members. -/
theorem takes_nextMember_closeBrace (first : Bool) (tokens : List Token) :
    Takes (nextMember first) (Spaced (.mark .closeBrace :: tokens)) false
      (Flush (.mark .closeBrace) tokens) :=
  (takes_token?_mark .closeBrace tokens).bind (.pure _ _)

/-! ### Members -/

section Members

variable {step : α → Reader α} {state next last : α} {entry : String × List Token}
  {entries : List (String × List Token)}

/-- A step **reads a member**, from its key on, whatever mark follows it. -/
def ReadsMember (step : α → Reader α) (state : α) (entry : String × List Token) (next : α) :
    Prop :=
  ∀ m following,
    Takes (step state) (Flush (.string entry.1) (.mark .colon :: entry.2 ++ .mark m :: following))
      next (Spaced (.mark m :: following))

/-- The states of a reader from member to member. -/
inductive Folds (step : α → Reader α) : α → List (String × List Token) → α → Prop
  | nil (state : α) : Folds step state [] state
  | cons {state next last : α} {entry : String × List Token}
      {entries : List (String × List Token)} (head : ReadsMember step state entry next)
      (tail : Folds step next entries last) : Folds step state (entry :: entries) last

/-- A member that is followed by others, or by the brace of its object. -/
theorem ReadsMember.takes (h : ReadsMember step state entry next)
    (entries : List (String × List Token)) (tokens : List Token) :
    Takes (step state)
      (Flush (.string entry.1)
        (.mark .colon :: entry.2 ++ (moreMembers entries ++ .mark .closeBrace :: tokens)))
      next (Spaced (moreMembers entries ++ .mark .closeBrace :: tokens)) := by
  obtain ⟨m, following, hmark⟩ := Token.exists_moreMembers_eq entries .closeBrace tokens
  rw [hmark]
  exact h m following

/-- All members behind the first. -/
theorem takes_foldMembers_moreMembers (h : Folds step state entries last) (tokens : List Token)
    {bytes : Nat} (hbytes : entries.length ≤ bytes) :
    Takes (foldMembers step (bytes + 1) false state)
      (Spaced (moreMembers entries ++ .mark .closeBrace :: tokens)) last
      (Flush (.mark .closeBrace) tokens) := by
  induction h generalizing bytes with
  | nil state => exact (takes_nextMember_closeBrace false tokens).bind (.pure _ _)
  | @cons state next last entry entries hhead _ ih =>
    rw [List.length_cons] at hbytes
    obtain ⟨bytes, rfl⟩ := Nat.exists_eq_add_one_of_ne_zero (by omega : bytes ≠ 0)
    have htokens : moreMembers (entry :: entries) ++ .mark .closeBrace :: tokens =
        .mark .comma :: .string entry.1 ::
          (.mark .colon :: entry.2 ++ (moreMembers entries ++ .mark .closeBrace :: tokens)) := by
      rw [moreMembers, List.flatMap_cons, List.append_assoc]
      rfl
    rw [htokens]
    refine (takes_nextMember_comma entry.1 _).bind ?_
    exact (hhead.takes entries tokens).bind (ih (by omega))

/-- All members of an object. -/
theorem takes_foldMembers (h : Folds step state entries last) (tokens : List Token) {bytes : Nat}
    (hbytes : entries.length ≤ bytes) :
    Takes (foldMembers step (bytes + 1) true state)
      (Spaced ([Token.mark .comma].intercalate (entries.map member) ++ .mark .closeBrace :: tokens))
      last (Flush (.mark .closeBrace) tokens) := by
  cases h with
  | nil => exact (takes_nextMember_closeBrace true tokens).bind (.pure _ _)
  | @cons _ next _ entry entries hhead htail =>
    rw [List.length_cons] at hbytes
    obtain ⟨bytes, rfl⟩ := Nat.exists_eq_add_one_of_ne_zero (by omega : bytes ≠ 0)
    rw [Token.intercalate_member, List.append_assoc]
    refine (takes_nextMember_first entry.1 _).bind ?_
    exact (hhead.takes entries tokens).bind (takes_foldMembers_moreMembers htail tokens (by omega))

/-- **The members of an object are read to its brace.** -/
theorem takes_members (h : Folds step state entries last) (tokens : List Token) :
    Takes (members step state)
      (Spaced ([Token.mark .comma].intercalate (entries.map member) ++ .mark .closeBrace :: tokens))
      last (Flush (.mark .closeBrace) tokens) := by
  intro input hinput
  have hbytes : entries.length ≤ input.length := by
    have hlength := hinput.length_le
    cases entries with
    | nil => exact Nat.zero_le _
    | cons entry entries =>
      have hmore := Token.length_le_length_moreMembers entries
      rw [Token.intercalate_member, member] at hlength
      simp only [List.length_append, List.length_cons] at hlength ⊢
      omega
  obtain ⟨rest, hrun, hrest⟩ := takes_foldMembers h tokens hbytes input hinput
  have hget : Runs get input input input := rfl
  exact ⟨rest, hget.bind hrun, hrest⟩

end Members

/-! ### Objects -/

/-- The value of a member that was not given before. -/
theorem takes_once {body : Reader α} {value : List Token} {a : α} (h : Reads body value a)
    (name : String) (m : Mark) (following : List Token) :
    Takes (once name none body) (Spaced (.mark .colon :: value ++ .mark m :: following)) (some a)
      (Spaced (.mark m :: following)) :=
  (takes_colon _).bind ((h m following).bind (.pure _ _))

/-- **A record is read from an object** with the members that its reader asks for. -/
theorem takes_record (levels : Nat) (expected : String) {fromList fromObject : Nat → Reader α}
    {entries : List (String × List Token)} {a : α} {following : List Token}
    (h : Takes (fromObject levels)
      (Spaced ([Token.mark .comma].intercalate (entries.map member) ++
        .mark .closeBrace :: following)) a (Flush (.mark .closeBrace) following)) :
    Takes (record (levels + 1) expected fromList fromObject)
      (Spaced (Token.object entries ++ following)) a (Spaced following) := by
  have hbody := h.andAlways ((takes_endObject following).of_imp fun _ => spaced_of_flush)
  rw [Token.object, List.cons_append, List.append_assoc, List.singleton_append]
  refine ((takes_found_openBrace _).bind ?_).placed
  refine (takes_skip .openBrace _).bind ?_
  exact hbody

/-! ### Lists -/

section Elements

variable {body : Reader α} {token : Token} {a : α} {c : Char}

/-- The first element follows at once. -/
theorem takes_nextElement_first (hfirst : token.first? = some c) (hc : c ≠ ']')
    (tokens : List Token) :
    Takes (nextElement true) (Spaced (token :: tokens)) true (Flush token tokens) := by
  refine (takes_token?_of_first? hfirst tokens).bind ?_
  split
  · next h => exact absurd h (Option.some_ne_none c)
  · next h => exact absurd (Option.some.inj h) hc
  · exact .pure _ _

/-- A further element follows behind a comma. -/
theorem takes_nextElement_comma (hfirst : token.first? = some c) (hc : c ≠ ']')
    (tokens : List Token) :
    Takes (nextElement false) (Spaced (.mark .comma :: token :: tokens)) true
      (Flush token tokens) := by
  refine (takes_token?_mark .comma _).bind ?_
  refine (takes_skip .comma _).bind ?_
  refine (takes_token?_of_first? hfirst tokens).bind ?_
  split
  · next h => exact absurd h (Option.some_ne_none c)
  · next h => exact absurd (Option.some.inj h) hc
  · exact .pure _ _

variable (h : Reads body [token] a) (hfirst : token.first? = some c) (hc : c ≠ ']')
  (expected : String) (m : Mark) (following : List Token)

include h hfirst hc

/-- The element at the front of a list. -/
theorem takes_elementAt_zero :
    Takes (elementAt 0 expected body) (Spaced (token :: .mark m :: following)) a
      (Spaced (.mark m :: following)) := by
  refine (takes_nextElement_first hfirst hc _).bind ?_
  exact (h m following).of_imp fun _ => spaced_of_flush

/-- An element behind others. -/
theorem takes_elementAt_succ (index : Nat) :
    Takes (elementAt (index + 1) expected body)
      (Spaced (.mark .comma :: token :: .mark m :: following)) a
      (Spaced (.mark m :: following)) := by
  refine (takes_nextElement_comma hfirst hc _).bind ?_
  exact (h m following).of_imp fun _ => spaced_of_flush

end Elements

end Reader

end DeltaPack.Json
