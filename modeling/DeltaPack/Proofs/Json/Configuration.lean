import DeltaPack.Config.File
import DeltaPack.Proofs.Json.Object
import Mathlib.Data.List.Permutation

/-!
# Configurations read back

A configuration is spelled by every document with its tokens, with the members of both objects in
any order (`Config.Spells`), and is loaded from each of them (`Config.load_of_spells`). The tag of a
backend may stand behind the level that belongs to it, so the level is kept until the tag is known.
-/

namespace DeltaPack

open Json

/-! ### Spellings -/

/-- The members of a choice. -/
def BackendChoice.entries : BackendChoice → List (String × List Token)
  | .lz4 => [("backend", [.string "lz4"])]
  | .zstd level => [("backend", [.string "zstd"]), ("level", [.integer level.toInt])]

/-- A document **spells** a configuration: its tokens are those of the configuration, with members
in any order and with any blanks between tokens. -/
def Config.Spells (config : Config) (document : List UInt8) : Prop :=
  ∃ backend tokens, Token.IsObject config.backend.entries backend ∧
    Token.IsObject [("backend", backend)] tokens ∧ Spaced tokens document

/-- The text of a choice is that of its members in order. -/
theorem BackendChoice.toJson_eq (choice : BackendChoice) :
    choice.toJson = (Token.object choice.entries).flatMap Token.bytes := by
  cases choice with
  | lz4 => rfl
  | zstd level =>
    rw [toJson, entries, Token.flatMap_bytes_object, List.map_cons, List.map_singleton,
      List.intercalate_cons_cons, List.intercalate_singleton, Token.flatMap_bytes_member,
      Token.flatMap_bytes_member, List.flatMap_singleton, List.flatMap_singleton]
    simp only [← List.append_assoc]
    rfl

/-- A configuration is spelled by its own text. -/
theorem Config.spells_toJson (config : Config) : config.Spells config.toJson := by
  have htext : config.toJson =
      (Token.object [("backend", Token.object config.backend.entries)]).flatMap Token.bytes := by
    rw [toJson, BackendChoice.toJson_eq, Token.flatMap_bytes_object [_], List.map_singleton,
      List.intercalate_singleton, Token.flatMap_bytes_member]
    simp only [← List.append_assoc]
    rfl
  refine ⟨_, _, ⟨_, .refl _, rfl⟩, ⟨_, .refl _, rfl⟩, ?_⟩
  rw [htext]
  exact spaced_flatMap_bytes _

/-! ### Backends -/

namespace BackendTag

open Reader

/-- The text of a tag. -/
def text : BackendTag → String
  | lz4 => "lz4"
  | zstd => "zstd"

theorem reads_read (tag : BackendTag) : Reads read [.string tag.text] tag := by
  intro m following
  have hplain : (Text.ascii tag.text).all isPlain = true := by cases tag <;> rfl
  have hvalue : ofText (Text.ascii tag.text) = .ok tag := by cases tag <;> rfl
  refine ((takes_found_string hplain _).bind ?_).placed
  exact .lift hvalue _

/-- The tag, before or behind its siblings. -/
theorem readsMember_tag (levels : Nat) (tag : BackendTag) (siblings : List (List UInt8 × Found)) :
    ReadsMember (readMember levels) (none, siblings) ("backend", [.string tag.text])
      (some tag, siblings) := by
  intro m following
  have hplain : (Text.ascii "backend").all isPlain = true := rfl
  refine (takes_key hplain _).bind ?_
  rw [if_pos rfl]
  refine (takes_once tag.reads_read _ m following).bind ?_
  exact .pure _ _

/-- The level, before or behind its tag. -/
theorem readsMember_level (levels : Nat) (level : Int32) (tag : Option BackendTag)
    (siblings : List (List UInt8 × Found)) :
    ReadsMember (readMember levels) (tag, siblings) ("level", [.integer level.toInt])
      (tag, (Text.ascii "level", .integer level.toInt) :: siblings) := by
  intro m following
  have hplain : (Text.ascii "level").all isPlain = true := rfl
  have hother : Text.ascii "level" ≠ Text.ascii "backend" := by decide
  refine (takes_key hplain _).bind ?_
  rw [if_neg hother]
  refine (takes_colon _).bind ?_
  refine (reads_anyValue_int32 level levels m following).bind ?_
  exact .pure _ _

end BackendTag

namespace BackendChoice

open Reader

/-- The level among the members that were kept. -/
theorem ofTag_zstd_level (level : Int32) :
    ofTag .zstd (.members [(Text.ascii "level", .integer level.toInt)]) = .ok (.zstd level) := by
  rw [ofTag, levelOfMembers, if_pos rfl, Found.toInt32_toInt]
  rfl

/-- The members of a choice **in any order** give its tag, and what stands beside it is enough to
find the choice again. -/
theorem exists_folds_readMember {choice : BackendChoice} {order : List (String × List Token)}
    (h : order.Perm choice.entries) (levels : Nat) :
    ∃ tag siblings, Folds (BackendTag.readMember levels) (none, []) order (some tag, siblings) ∧
      ofTag tag (.members siblings.reverse) = .ok choice := by
  cases choice with
  | lz4 =>
    obtain rfl := List.perm_singleton.1 h
    exact ⟨.lz4, [], .cons (BackendTag.readsMember_tag levels .lz4 []) (.nil _), rfl⟩
  | zstd level =>
    refine ⟨.zstd, [(Text.ascii "level", .integer level.toInt)], ?_, ofTag_zstd_level level⟩
    rcases List.perm_pair.1 h with rfl | rfl
    · -- the tag comes first
      exact .cons (BackendTag.readsMember_tag levels .zstd _)
        (.cons (BackendTag.readsMember_level levels level _ _) (.nil _))
    · exact .cons (BackendTag.readsMember_level levels level _ _)
        (.cons (BackendTag.readsMember_tag levels .zstd _) (.nil _))

/-- **A choice is read from its members in any order.** -/
theorem takes_read {choice : BackendChoice} {tokens : List Token}
    (h : Token.IsObject choice.entries tokens) (levels : Nat) (following : List Token) :
    Takes (read (levels + 1)) (Spaced (tokens ++ following)) choice (Spaced following) := by
  obtain ⟨order, hperm, rfl⟩ := h
  obtain ⟨tag, siblings, hfolds, hvalue⟩ := exists_folds_readMember hperm levels
  have hmembers : Takes (BackendTag.readMembers levels)
      (Spaced ([Token.mark .comma].intercalate (order.map Token.member) ++
        .mark .closeBrace :: following)) (tag, .members siblings.reverse)
      (Flush (.mark .closeBrace) following) := by
    refine (takes_members hfolds following).bind ?_
    exact (Takes.lift rfl _).bind (.pure _ _)
  refine (takes_record levels _ hmembers).bind ?_
  exact .lift hvalue _

end BackendChoice

/-! ### Configurations -/

namespace Config

open Reader

/-- The only member of a configuration. -/
theorem readsMember_backend {choice : BackendChoice} {tokens : List Token}
    (h : Token.IsObject choice.entries tokens) (levels : Nat) :
    ReadsMember (readMember (levels + 1)) none ("backend", tokens) (some choice) := by
  intro m following
  have hread : Reads (BackendChoice.read (levels + 1)) tokens choice :=
    fun m following => BackendChoice.takes_read h levels (.mark m :: following)
  have hplain : (Text.ascii "backend").all isPlain = true := rfl
  refine (takes_key hplain _).bind ?_
  rw [if_pos rfl]
  exact takes_once hread _ m following

theorem takes_read {config : Config} {backend tokens : List Token}
    (hbackend : Token.IsObject config.backend.entries backend)
    (h : Token.IsObject [("backend", backend)] tokens) (following : List Token) :
    Takes read (Spaced (tokens ++ following)) config (Spaced following) := by
  obtain ⟨order, hperm, rfl⟩ := h
  obtain rfl := List.perm_singleton.1 hperm
  -- this object takes one of the levels, and the backend takes another
  have hfolds : Folds (readMember 126) none [("backend", backend)] (some config.backend) :=
    .cons (readsMember_backend hbackend 125) (.nil _)
  refine takes_record 126 _ ?_
  refine (takes_members hfolds following).bind ?_
  exact .pure _ _

/-- **A configuration is loaded from each of its spellings.** -/
theorem load_of_spells {config : Config} {document : List UInt8} (h : config.Spells document) :
    load document = .ok config := by
  obtain ⟨backend, tokens, hbackend, htokens, hdocument⟩ := h
  have hread := takes_read hbackend htokens []
  rw [List.append_nil] at hread
  have hofJson : ofJson document = .ok config := readAll_of_takes hread hdocument
  rw [load, hofJson]
  rfl

end Config

end DeltaPack
