import DeltaPack.Config
import DeltaPack.Lz4.Fault

/-!
# The log

The library reports what it does as a sequence of events. `Traced` pairs a result with the
events that led to it, oldest first, so that what is logged is part of what a function returns
and can be reasoned about; `Event.level` and `Event.message` give the line a log shows.
-/

namespace DeltaPack

/-- How important an event is. -/
inductive Level where
  | trace
  | debug
  deriving DecidableEq, Repr

/-- The name of a level in a log line. -/
def Level.name : Level → String
  | .trace => "TRACE"
  | .debug => "DEBUG"

/-- Something the library reports. -/
inductive Event where
  /-- A list was pre-coded: its length, its common difference and the bytes of its residuals. -/
  | encoded (count : Nat) (common : Int32) (residualBytes : Nat)
  /-- A list was packed: its length, and its size before and after the byte compressor. -/
  | packed (count precoded compressed : Nat)
  /-- The byte compressor gave nothing for a source of the given length. -/
  | gaveNothing (length : Nat)
  /-- The LZ4 decoder refused a source. -/
  | lz4Refused (fault : Lz4.Fault)
  /-- The Zstandard decoder refused a source, for the reason in its own words. -/
  | zstdRefused (reason : String)
  /-- A session was opened. -/
  | opened (backend : BackendChoice)
  deriving DecidableEq, Repr

/-- Sizes are reported at the finest level, choices and refusals above it. -/
def Event.level : Event → Level
  | .packed .. | .gaveNothing .. => .trace
  | _ => .debug

/-- The text of a log line. -/
def Event.message : Event → String
  | .encoded count common residualBytes =>
    s!"precode::encode: {count} ints, common delta " ++ toString common.toInt ++
      s!", {residualBytes} residual bytes"
  | .packed count precoded compressed =>
    s!"compress_words: {count} ints -> {precoded} pre-coded -> {compressed} compressed bytes"
  | .gaveNothing length => s!"decompress_words: compressor returned 0 for {length} input bytes"
  | .lz4Refused fault => "lz4 decompress failed: " ++ fault.message
  | .zstdRefused reason => "zstd decompress failed: " ++ reason
  | .opened backend => "IntegerCodec: backend " ++ backend.inspect

/-- A result with the events that led to it, oldest first. -/
structure Traced (α : Type) where
  /-- The result. -/
  value : α
  /-- What was reported on the way. -/
  events : List Event

namespace Traced

instance : Monad Traced where
  pure a := ⟨a, []⟩
  bind x f := ⟨(f x.value).value, x.events ++ (f x.value).events⟩

/-- Reports one event. -/
def emit (event : Event) : Traced Unit := ⟨(), [event]⟩

variable {α β : Type}

@[simp]
theorem value_pure (a : α) : (pure a : Traced α).value = a := rfl

@[simp]
theorem events_pure (a : α) : (pure a : Traced α).events = [] := rfl

@[simp]
theorem value_bind (x : Traced α) (f : α → Traced β) :
    (x >>= f).value = (f x.value).value := rfl

@[simp]
theorem events_bind (x : Traced α) (f : α → Traced β) :
    (x >>= f).events = x.events ++ (f x.value).events := rfl

@[simp]
theorem value_emit (event : Event) : (emit event).value = () := rfl

@[simp]
theorem events_emit (event : Event) : (emit event).events = [event] := rfl

end Traced

end DeltaPack
