import RatatoskrVault.Gitrunner.Runner

/-! `read_capped` of a stream that may end in an error: what it retains, and what it reports. -/
namespace RatatoskrVault

inductive StreamEnd
  | endOfFile | readError
  deriving DecidableEq

/-- The chunks in which a stream is read, and what the read after them returns. -/
structure ByteStream where
  chunks : List Chunk
  ending : StreamEnd
  deriving DecidableEq

namespace ByteStream

def delivered (stream : ByteStream) : Bytes := (stream.chunks.map (·.1)).flatten

/-- `read_capped`, one read at a time. -/
def readFrom (cap : ℕ) (ending : StreamEnd) (retained : Bytes) : List Chunk → Bytes × Bool
  | [] =>
    match ending with
    | .endOfFile | .readError => (retained, false)
  | chunk :: rest =>
    let take := min chunk.1.length (cap - retained.length)
    let retained := retained ++ chunk.1.take take
    if take < chunk.1.length then (retained, true) else readFrom cap ending retained rest

def readCapped (cap : ℕ) (stream : ByteStream) : Bytes × Bool :=
  readFrom cap stream.ending [] stream.chunks

/-- What is retained is the beginning, a longer stream is reported, and so is one that broke off. -/
structure ExactCapture (cap : ℕ) (stream : ByteStream) (capture : Bytes × Bool) : Prop where
  retained : capture.1 = stream.delivered.take (min cap stream.delivered.length)
  overflow : capture.2 = true ↔ cap < stream.delivered.length
  incomplete : stream.ending = .readError → capture.2 = true

section

variable {cap : ℕ} {stream : ByteStream} {retained : Bytes}

/-- The end of the stream is not looked at. -/
theorem readFrom_eq (ending : StreamEnd) (chunks : List Chunk) :
    readFrom cap ending retained chunks = RatatoskrVault.readCapped cap retained chunks := by
  induction chunks generalizing retained with
  | nil => cases ending <;> rfl
  | cons chunk rest ih =>
    unfold readFrom RatatoskrVault.readCapped
    dsimp only
    rw [ih]

theorem readCapped_eq (cap : ℕ) (stream : ByteStream) : stream.readCapped cap =
    (stream.delivered.take cap, decide (cap < stream.delivered.length)) := by
  unfold readCapped delivered
  rw [readFrom_eq, RatatoskrVault.readCapped_eq (Nat.zero_le cap), List.nil_append]

/-- A capture is exact, however the stream was cut into chunks, if and only if no error ended the
stream before its overflow. -/
theorem exactCapture_iff (cap : ℕ) (stream : ByteStream) :
    ExactCapture cap stream (stream.readCapped cap) ↔
      (stream.ending = .readError → cap < stream.delivered.length) := by
  rw [readCapped_eq]
  constructor
  · intro h herror
    exact of_decide_eq_true (h.incomplete herror)
  · intro h
    refine ⟨?_, decide_eq_true_iff, fun herror => decide_eq_true (h herror)⟩
    rw [← List.take_eq_take_min]

end

/-- A stream that broke off is reported as one that ended. -/
theorem readCapped_broken :
    readCapped 4 { chunks := [⟨[1, 2], by decide⟩], ending := .readError } = ([1, 2], false) ∧
      ¬ ExactCapture 4 { chunks := [⟨[1, 2], by decide⟩], ending := .readError } ([1, 2], false) :=
  ⟨by decide, fun h => absurd (h.incomplete rfl) (by decide)⟩

end ByteStream

end RatatoskrVault
