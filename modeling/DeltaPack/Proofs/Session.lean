import DeltaPack.OneShot
import DeltaPack.Proofs.Pack.Target
import DeltaPack.Session
import Mathlib.Control.Monad.Basic

/-!
# Sessions keep nothing that matters

A session changes only when it unpacks by way of its own working space. The working space then
grows, if it has to, and is left full of whatever the call wrote; nothing but its size is ever
looked at again.

* What a session answers is determined by its backend (`answers_eq`). For the pooled calls this is
  where the compressor has to ignore its target.
* A request leaves the configuration and the backend as they are, and the working space as large as
  the largest one asked for so far (`step_state`); so does a list of requests (`run_state`).
* Hence a list of requests is answered as each of its members would be by a fresh session
  (`run_replies`), and by the one-shot calls if the backend is LZ4 (`run_historyIndependent`).
-/

namespace DeltaPack

/-- What the calls of a codec answer, for all element types. -/
structure Answers where
  /-- The room that packing so many values asks for. -/
  room : Nat → Nat
  /-- Packs a list. -/
  compress : ∀ {α : Type} [Word32 α], List α → Except PackError (List UInt8)
  /-- Packs a list into a buffer. -/
  compressInto : ∀ {α : Type} [Word32 α], List α → List UInt8 → Filled UInt8
  /-- Unpacks into a slice, perhaps by way of a given working space. -/
  decompressInto : ∀ {α : Type} [Word32 α], List UInt8 → List α → Option (List UInt8) → Filled α
  /-- Unpacks into a slice by way of a working space that is not given. -/
  decompressPooled : ∀ {α : Type} [Word32 α], List UInt8 → List α → Filled α

/-- The reply to a request. -/
def Answers.reply (answers : Answers) : Request → Reply
  | .size count => .size (answers.room count)
  | .compress words => .packed (answers.compress words)
  | .compressInto words output => .filled (answers.compressInto words output)
  | .decompressInto compressed slice workspace =>
    .restored (answers.decompressInto compressed slice workspace)
  | .decompressPooled compressed slice => .restored (answers.decompressPooled compressed slice)
  | .clone => .cloned

/-- The answers of the one-shot calls, which have no working space of their own. -/
def OneShot.answers : Answers where
  room := compressedBufferSize
  compress values := (compress values).value
  compressInto values output := (compressInto values output).value
  decompressInto compressed slice workspace := (decompressInto compressed slice workspace).value
  decompressPooled compressed slice := (decompressInto compressed slice none).value

/-- The answers over a byte compressor if nothing is kept. -/
def Compressor.answers (c : Compressor) : Answers where
  room := c.packedSize
  compress values := (c.packed (Word32.toWords values)).value
  compressInto values output := (c.pack (Word32.toWords values) output).value
  decompressInto compressed slice workspace :=
    (c.unpack compressed (Word32.toWords slice) workspace).value.map Word32.ofWord
  decompressPooled compressed slice :=
    (c.unpack compressed (Word32.toWords slice) none).value.map Word32.ofWord

theorem OneShot.answers_eq : OneShot.answers = OneShot.compressor.answers := rfl

/-- The working space that a request asks the session for. -/
def Request.pooledSize : Request → Nat
  | .decompressPooled _ slice => Precoded.maxSize slice.length
  | _ => 0

namespace Session

open Compressor (Suffices suffices_none)

theorem length_grow (s : Session) (size : Nat) :
    (s.grow size).workspace.length = max s.workspace.length size := by
  simp only [grow, List.length_append, List.length_replicate]
  omega

/-- The grown working space has the room that a slice needs. -/
theorem workspaceSize_le_length_grow {α : Type} [Word32 α] (s : Session) (slice : List α) :
    Precoded.workspaceSize (Word32.toWords slice).length ≤
      (s.grow (Precoded.workspaceSize slice.length)).workspace.length := by
  rw [length_grow, Word32.length_toWords]
  exact Nat.le_max_right _ _

section Library

variable [Zstd.Library] {α : Type} [Word32 α]

/-- The answers of a session as it is. -/
def answers (s : Session) : Answers where
  room := s.compressedBufferSize
  compress values := (s.compress values).value
  compressInto values output := (s.compressInto values output).value
  decompressInto compressed slice workspace := (s.decompressInto compressed slice workspace).value
  decompressPooled compressed slice := (s.decompressPooled compressed slice).value.1

/-! ### One request -/

theorem value_decompressPooled (s : Session) (compressed : List UInt8) (slice : List α) :
    (s.decompressPooled compressed slice).value =
      let outcome := (s.backend.compressor.unpackWithin compressed (Word32.toWords slice)
        (s.grow (Precoded.workspaceSize slice.length)).workspace).value
      (outcome.1.map Word32.ofWord, { s with workspace := outcome.2 }) := rfl

/-- **A pooled call answers as one with any working space that is large enough**, or with none. -/
theorem decompressPooled_eq {s : Session} (h : s.backend.compressor.IgnoresTarget)
    (compressed : List UInt8) {slice : List α} {workspace : Option (List UInt8)}
    (hworkspace : Suffices workspace slice.length) :
    (s.decompressPooled compressed slice).value.1 =
      (s.decompressInto compressed slice workspace).value := by
  rw [← Word32.length_toWords slice] at hworkspace
  rw [value_decompressPooled, decompressInto, Traced.value_bind, Traced.value_pure,
    Compressor.value_unpack_eq h compressed hworkspace (s.workspaceSize_le_length_grow slice)]

/-- **What a session answers is determined by its backend.** -/
theorem answers_eq {s : Session} (h : s.backend.compressor.IgnoresTarget) :
    s.answers = s.backend.compressor.answers := by
  -- the other four calls never see the working space, so only this one needs the compressor's help
  have hpooled (β : Type) (_ : Word32 β) (compressed : List UInt8) (slice : List β) :
      s.answers.decompressPooled compressed slice =
        s.backend.compressor.answers.decompressPooled compressed slice :=
    decompressPooled_eq h compressed (suffices_none _)
  simp only [answers, Compressor.answers, Answers.mk.injEq] at hpooled ⊢
  refine ⟨rfl, rfl, rfl, rfl, ?_⟩
  funext β _ compressed slice
  exact hpooled β _ compressed slice

theorem step_reply (s : Session) (request : Request) :
    (s.step request).value.1 = s.answers.reply request := by
  cases request <;> rfl

/-- A pooled call leaves the session that the same call on words leaves. -/
theorem decompressPooled_state (s : Session) (compressed : List UInt8) (slice : List α) :
    (s.decompressPooled compressed slice).value.2 =
      (s.step (.decompressPooled compressed (Word32.toWords slice))).value.2 := by
  have hwords : Word32.toWords (Word32.toWords slice) = Word32.toWords slice := List.map_id _
  have hstep : (s.step (.decompressPooled compressed (Word32.toWords slice))).value.2 =
      (s.decompressPooled compressed (Word32.toWords slice)).value.2 := rfl
  rw [hstep, value_decompressPooled, value_decompressPooled, hwords, Word32.length_toWords]

/-- **A request** leaves the configuration and the backend as they are, and the working space as
large as it asks for if it was smaller. -/
theorem step_state (s : Session) (request : Request) :
    (s.step request).value.2.config = s.config ∧ (s.step request).value.2.backend = s.backend ∧
      (s.step request).value.2.workspaceCapacity = max s.workspaceCapacity request.pooledSize := by
  cases request with
  | decompressPooled compressed slice =>
    refine ⟨rfl, rfl, ?_⟩
    calc (s.step (.decompressPooled compressed slice)).value.2.workspaceCapacity
        = (s.grow (Precoded.workspaceSize slice.length)).workspace.length :=
          Compressor.length_unpackWithin s.backend.keepsTargetLength compressed _ _
      _ = max s.workspaceCapacity (Precoded.maxSize slice.length) := s.length_grow _
  | _ => exact ⟨rfl, rfl, (Nat.max_zero _).symm⟩

/-! ### A list of requests -/

theorem run_cons (s : Session) (request : Request) (rest : List Request) :
    (s.run (request :: rest)).value =
      ((s.step request).value.1 :: ((s.step request).value.2.run rest).value.1,
        ((s.step request).value.2.run rest).value.2) := rfl

/-- **Requests** leave the configuration and the backend as they are, and the working space as large
as the largest one that was asked for. -/
theorem run_state (s : Session) (requests : List Request) :
    (s.run requests).value.2.config = s.config ∧ (s.run requests).value.2.backend = s.backend ∧
      (s.run requests).value.2.workspaceCapacity =
        (requests.map Request.pooledSize).foldl max s.workspaceCapacity := by
  -- the session is generalized, since the rest runs on the one that the first request leaves
  induction requests generalizing s with
  | nil => exact ⟨rfl, rfl, rfl⟩
  | cons request rest ih =>
    obtain ⟨hconfig, hbackend, hcapacity⟩ := s.step_state request
    obtain ⟨hconfig', hbackend', hcapacity'⟩ := ih (s.step request).value.2
    rw [run_cons, List.map_cons, List.foldl_cons, ← hcapacity]
    exact ⟨hconfig'.trans hconfig, hbackend'.trans hbackend, hcapacity'⟩

/-- **Each request is answered as if it were the first.** -/
theorem run_replies {s : Session} (h : s.backend.compressor.IgnoresTarget)
    (requests : List Request) :
    (s.run requests).value.1 = requests.map s.backend.compressor.answers.reply := by
  induction requests generalizing s with
  | nil => rfl
  | cons request rest ih =>
    -- the session left behind has the same backend, hence the same answers
    obtain ⟨-, hbackend, -⟩ := s.step_state request
    rw [run_cons, List.map_cons, step_reply, answers_eq h, ih (by rwa [hbackend]), hbackend]

/-- **Sessions are independent of their history.** Requests of any kind, successful or not, leave
the configuration and the backend as they are and the working space as large as the largest one
asked for. Each is answered as it would be by a fresh session, and so is any later call, on values
of any element type; with LZ4 the answers are those of the one-shot calls. A pooled call, a call
without a working space and one with any working space that is large enough come to the same.

Of a Zstandard library it is assumed that it ignores its target. -/
theorem run_historyIndependent (config : Config) (requests : List Request)
    (hzstd : ∀ level, config.backend = .zstd level → (Zstd.compressor { level }).IgnoresTarget) :
    let fresh := (start config).value
    let replies := (fresh.run requests).value.1
    let reached := (fresh.run requests).value.2
    (reached.config = config ∧ reached.backend = Backend.ofChoice config.backend ∧
      reached.workspaceCapacity = (requests.map Request.pooledSize).foldl max 0) ∧
    (replies = requests.map (fun request => (fresh.step request).value.1) ∧
      reached.answers = fresh.answers ∧
      (config.backend = .lz4 →
        replies = requests.map OneShot.answers.reply ∧ reached.answers = OneShot.answers)) ∧
    ∀ {α : Type} [Word32 α] (compressed : List UInt8) (slice : List α),
      let pooled := (reached.decompressPooled compressed slice).value
      pooled.1 = (reached.decompressInto compressed slice none).value ∧
      (∀ space : List UInt8, Precoded.maxSize slice.length ≤ space.length →
        pooled.1 = (reached.decompressInto compressed slice (some space)).value) ∧
      pooled.2 = (reached.step (.decompressPooled compressed (Word32.toWords slice))).value.2 := by
  intro fresh replies reached
  have hfresh : fresh.backend.compressor.IgnoresTarget := Backend.ignoresTarget_ofChoice hzstd
  obtain ⟨hconfig, hbackend, hcapacity⟩ := fresh.run_state requests
  have hreached : reached.backend.compressor.IgnoresTarget := by rwa [hbackend]
  have hreplies : replies = requests.map fresh.backend.compressor.answers.reply :=
    run_replies hfresh requests
  have hanswers : reached.answers = fresh.backend.compressor.answers := by
    rw [answers_eq hreached, hbackend]
  refine ⟨⟨hconfig, hbackend, hcapacity⟩, ⟨?_, ?_, ?_⟩, ?_⟩
  · rw [hreplies]
    refine List.map_congr_left fun request _ => ?_
    rw [step_reply, answers_eq hfresh]
  · rw [hanswers, answers_eq hfresh]
  · intro hlz4
    have hcompressor : fresh.backend.compressor = OneShot.compressor := by
      show (Backend.ofChoice config.backend).compressor = OneShot.compressor
      rw [hlz4]
      rfl
    rw [hreplies, hanswers, hcompressor, OneShot.answers_eq]
    exact ⟨rfl, rfl⟩
  · intro α _ compressed slice
    refine ⟨decompressPooled_eq hreached compressed (suffices_none _), fun space hspace => ?_,
      reached.decompressPooled_state compressed slice⟩
    refine decompressPooled_eq hreached compressed fun space' h => ?_
    cases h
    exact hspace

end Library

/-- A session with Zstandard after a short source for many values, a frame for few, and a copy: the
working space stays as large as for many, and holds what is left of all of it. -/
theorem run_historyIndependent_zstd :
    let config : Config := { backend := .zstd 3 }
    let frame : List UInt8 :=
      [40, 181, 47, 253, 224, 11, 0, 0, 0, 0, 0, 0, 0, 89, 0, 0,
        217, 254, 255, 255, 50, 44, 1, 155, 134, 1, 0]
    let requests : List Request :=
      [.decompressPooled [40, 181] [1, 2, 3, 4, 5], .decompressPooled frame [7, 7, 7], .clone]
    let fresh := (start config).value
    let reached := (fresh.run requests).value.2
    reached.workspaceCapacity = 26 ∧ reached.answers = fresh.answers ∧
      (reached.decompressPooled frame ([0, 0, 0] : List UInt32)).value.1.buffer =
        [300, 5, 100000] := by
  intro config frame requests fresh reached
  obtain ⟨⟨-, -, hcapacity⟩, ⟨-, hanswers, -⟩, hpooled⟩ :=
    run_historyIndependent config requests fun level _ => Zstd.ignoresTarget_storing { level }
  refine ⟨hcapacity.trans (by decide +kernel), hanswers, ?_⟩
  rw [(hpooled frame ([0, 0, 0] : List UInt32)).1]
  decide +kernel

end Session

end DeltaPack
