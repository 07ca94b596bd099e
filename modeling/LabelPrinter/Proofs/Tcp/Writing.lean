import LabelPrinter.Tcp.Link

/-!
How a whole message is written to a socket that takes it piece by piece, and what the machine of the
connection is told of it.
-/

namespace LabelPrinter.Tcp

/-- What becomes of one write. -/
inductive Chunk where
  | took (count : Nat)
  | failed (e : IoError)
  deriving DecidableEq, Repr

/-- The bytes that the socket has taken, and the error if it has not taken them all. An interrupted
write is tried again. Behind the given chunks everything is taken. -/
def writeAll : List UInt8 → List Chunk → List UInt8 × Option IoError
  | [], _ => ([], none)
  | message@(_ :: _), [] => (message, none)
  | message@(_ :: _), .took n :: chunks =>
    if n = 0 then ([], some ⟨.writeZero, "failed to write whole buffer"⟩)
    else
      let rest := writeAll (message.drop n) chunks
      (message.take n ++ rest.1, rest.2)
  | message@(_ :: _), .failed e :: chunks =>
    if e.kind = .interrupted then writeAll message chunks else ([], some e)

/-- An error leaves something unwritten. -/
theorem writeAll_split (message : List UInt8) (chunks : List Chunk) :
    ∃ left, message = (writeAll message chunks).1 ++ left ∧
      ((writeAll message chunks).2 = none ↔ left = []) := by
  fun_induction writeAll message chunks with
  | case1 chunks => exact ⟨[], rfl, by simp⟩
  | case2 b rest => exact ⟨[], by simp, by simp⟩
  | case3 b rest chunks => exact ⟨b :: rest, rfl, by simp⟩
  | case4 b rest n chunks hn tail ih =>
    obtain ⟨left, he, hl⟩ := ih
    refine ⟨left, ?_, hl⟩
    rw [List.append_assoc, ← he, List.take_append_drop]
  | case5 b rest e chunks hi ih => exact ih
  | case6 b rest e chunks hi => exact ⟨b :: rest, rfl, by simp⟩

example : writeAll [65, 66, 67] [.took 2, .failed ⟨.interrupted, "try again"⟩, .took 0] =
    ([65, 66], some ⟨.writeZero, "failed to write whole buffer"⟩) := by decide

/-- What the machine sees of a message that is written chunk by chunk. -/
def Write.of (message : List UInt8) (chunks : List Chunk) : Write :=
  match writeAll message chunks with
  | (_, none) => .complete
  | (taken, some e) => .broken taken.length e

theorem Write.of_complete {message : List UInt8} {chunks : List Chunk}
    (h : of message chunks = .complete) : writeAll message chunks = (message, none) := by
  obtain ⟨left, he, hl⟩ := writeAll_split message chunks
  match hw : writeAll message chunks with
  | (taken, none) =>
    rw [hw] at he hl
    obtain rfl := hl.mp rfl
    rw [he, List.append_nil]
  | (taken, some e) => simp [of, hw] at h

theorem Write.of_broken {message : List UInt8} {chunks : List Chunk} {n : Nat} {e : IoError}
    (h : of message chunks = .broken n e) :
    ∃ left, left ≠ [] ∧ message = message.take n ++ left ∧
      writeAll message chunks = (message.take n, some e) := by
  obtain ⟨left, he, hl⟩ := writeAll_split message chunks
  match hw : writeAll message chunks with
  | (taken, none) => simp [of, hw] at h
  | (taken, some d) =>
    rw [hw] at he hl
    obtain ⟨rfl, rfl⟩ : taken.length = n ∧ d = e := by simpa [of, hw] using h
    have ht : message.take taken.length = taken := by rw [he, List.take_left]
    refine ⟨left, fun hn => absurd (hl.mpr hn) (by simp), ?_, ?_⟩
    · rwa [ht]
    · rw [ht]

end LabelPrinter.Tcp
