import LabelPrinter.Proofs.Reply.Text
import LabelPrinter.Tcp.Link

/-!
A text that a peer sends back in the charset of the session is received as it was written, line by
line.
-/

namespace LabelPrinter.Tcp

/-- The worker reads the chunks one after the other. -/
def Link.readAll (l : Link) (chunks : List (List UInt8)) : Step Link :=
  chunks.foldl (fun x chunk => x.andThen (·.read (.ok chunk))) (l, [])

theorem readAll_eq {l : Link} {charset : Charset} {chunks : List (List UInt8)}
    (ha : l.isAlive = true) (hw : l.worker = some (.reading charset {}))
    (hne : ∀ chunk ∈ chunks, chunk ≠ []) :
    l.readAll chunks = ({ l with worker := some (.reading charset (LineFramer.feed {} chunks).2) },
      (LineFramer.feed {} chunks).1.map (Link.received charset)) := by
  induction chunks using List.reverseRecOn with
  | nil =>
    cases l
    obtain rfl : _ = some (Worker.reading charset {}) := hw
    rfl
  | append_singleton chunks chunk ih =>
    have hlast : l.readAll (chunks ++ [chunk]) = (l.readAll chunks).andThen (·.read (.ok chunk)) := by
      rw [Link.readAll, List.foldl_append]
      rfl
    rw [hlast, ih fun c hc => hne c (List.mem_append_left _ hc), LineFramer.feed_snoc]
    obtain ⟨b, bs, rfl⟩ := List.exists_cons_of_ne_nil
      (hne chunk (List.mem_append_right _ List.mem_cons_self))
    have halive : l.session.any (·.alive) = true := ha
    simp [Step.andThen, Link.read, Link.goOn, Link.isAlive, halive]

/-- What comes of a text that is read in these chunks. -/
structure ReadBack (charset : Charset) (text : String) (chunks : List (List UInt8)) : Prop where
  lines : (LineFramer.feed {} chunks).1.map charset.decode = textLines text
  pending : (LineFramer.feed {} chunks).2.pending = []
  received : ∀ l : Link, l.isAlive = true → l.worker = some (.reading charset {}) →
    (∀ chunk ∈ chunks, chunk ≠ []) →
      (l.readAll chunks).2 = (textLines text).map fun line => .data (.received line)

theorem text_read_back {charset : Charset} {text : String}
    (hcodec : charset.codec.IsAsciiCompatible) (htext : charset.codec.Represents text)
    (hcr : '\r' ∉ text.toList) (hend : text.toList.getLast? = some '\n') :
    ∃ bytes, charset.encode text = .ok bytes ∧
      ∀ chunks, WithReturns bytes chunks.flatten → ReadBack charset text chunks := by
  obtain ⟨bytes, hbytes, hfeed⟩ := feed_encoded hcodec htext hcr hend
  refine ⟨bytes, hbytes, fun chunks hchunks => ?_⟩
  obtain ⟨hlines, hpending⟩ := hfeed chunks hchunks
  refine ⟨hlines, hpending, fun l ha hw hne => ?_⟩
  rw [readAll_eq ha hw hne, ← hlines, List.map_map]
  rfl

/-- The first chunk ends in the middle of a character, and every line in a carriage return and a
line feed. -/
theorem text_read_back_accented :
    CodePage.utf8.codec.IsAsciiCompatible ∧ CodePage.utf8.codec.Represents "caf\u00e9\nOK\n" ∧
      '\r' ∉ "caf\u00e9\nOK\n".toList ∧ "caf\u00e9\nOK\n".toList.getLast? = some '\n' ∧
      ReadBack { codec := CodePage.utf8.codec } "caf\u00e9\nOK\n"
        [[99, 97, 102, 195], [169, 13, 10], [79, 75, 13, 10]] := by
  have hcodec : CodePage.utf8.codec.IsAsciiCompatible := ⟨.utf8, trivial, rfl⟩
  have htext : CodePage.utf8.codec.Represents "caf\u00e9\nOK\n" := ⟨_, rfl⟩
  have hcr : '\r' ∉ "caf\u00e9\nOK\n".toList := by decide
  have hend : "caf\u00e9\nOK\n".toList.getLast? = some '\n' := by decide
  obtain ⟨bytes, hbytes, hread⟩ :=
    @text_read_back { codec := CodePage.utf8.codec } _ hcodec htext hcr hend
  have hplain : Charset.encode { codec := CodePage.utf8.codec } "caf\u00e9\nOK\n" =
      .ok [99, 97, 102, 195, 169, 10, 79, 75, 10] := rfl
  obtain rfl := Except.ok.inj (hplain.symm.trans hbytes)
  refine ⟨hcodec, htext, hcr, hend, hread _ ?_⟩
  exact .keep 99 (.keep 97 (.keep 102 (.keep 195 (.keep 169 (.insert (.keep 10
    (.keep 79 (.keep 75 (.insert (.keep 10 .nil))))))))))

end LabelPrinter.Tcp
