import LabelPrinter.Proofs.Charset.Decoding
import LabelPrinter.Proofs.Command.Sends
import LabelPrinter.Proofs.Label.Fragments

/-!
The three outputs of a label agree: what its commands render to decides all of them, and the first
command that cannot be rendered fails them all with its error.
-/

namespace LabelPrinter

open Check

namespace Command

def Renders (c : Command) : Prop := ∃ bytes, c.render = .ok bytes

/-- The first of the commands that cannot be rendered fails with this error, whatever follows. -/
inductive FirstError (e : ValidationError) : List Command → Prop where
  | here {c : Command} {cs : List Command} : c.render = .error e → FirstError e (c :: cs)
  | later {c : Command} {cs : List Command} :
      c.Renders → FirstError e cs → FirstError e (c :: cs)

theorem text_of_render {c : Command} (hc : ∀ d, c ≠ .bitmap d) {bytes : List UInt8}
    (h : c.render = .ok bytes) : ∃ s, Utf8.encode s = bytes := by
  obtain ⟨l, -, -, rfl⟩ | ⟨d, l, hd, -, -⟩ := render_line h
  · exact ⟨_, rfl⟩
  · exact absurd hd (hc d)

end Command

namespace Label

/-- The label that holds these commands, added one by one. -/
def of (cs : List Command) : Label := cs.foldl add {}

/-- Adds the commands of another label behind its own. -/
def append (l m : Label) : Label := m.commands.foldl add l

theorem commands_foldl_add (cs : List Command) (l : Label) :
    (cs.foldl add l).commands = l.commands ++ cs := by
  induction cs generalizing l with
  | nil => simp
  | cons c cs ih =>
    rw [List.foldl_cons, ih, add, List.append_assoc]
    rfl

theorem commands_of (cs : List Command) : (of cs).commands = cs := commands_foldl_add cs {}

theorem commands_append (l m : Label) : (l.append m).commands = l.commands ++ m.commands :=
  commands_foldl_add m.commands l

variable {l m : Label}

theorem fragments_ok_iff : (∃ fs, l.fragments = .ok fs) ↔ ∀ c ∈ l.commands, c.Renders := by
  simp only [fragments_eq_ok]
  induction l.commands with
  | nil => simp
  | cons c cs ih =>
    rw [List.forall_mem_cons, ← ih]
    constructor
    · rintro ⟨fs, h⟩
      obtain ⟨b, fs, hc, hcs, rfl⟩ := List.forall₂_cons_left_iff.mp h
      exact ⟨⟨b, hc⟩, fs, hcs⟩
    · rintro ⟨⟨b, hc⟩, fs, hcs⟩
      exact ⟨b :: fs, .cons hc hcs⟩

theorem fragments_error_iff {e : ValidationError} :
    l.fragments = .error e ↔ Command.FirstError e l.commands := by
  rw [fragments]
  induction l.commands with
  | nil =>
    constructor
    · intro h
      cases h
    · intro h
      cases h
  | cons c cs ih =>
    rw [List.mapM_cons]
    cases hc : c.render with
    | error d =>
      constructor
      · intro h
        obtain rfl : d = e := Except.error.inj h
        exact .here hc
      · rintro (h | ⟨⟨b, h⟩, -⟩)
        · exact congrArg Except.error (Except.error.inj (hc.symm.trans h))
        · cases hc.symm.trans h
    | ok b =>
      have hcs : (do return b :: (← cs.mapM Command.render) : Checked (List (List UInt8))) =
          .error e ↔ cs.mapM Command.render = .error e := by
        cases cs.mapM Command.render with
        | error d => exact Iff.rfl
        | ok fs =>
          constructor
          · intro h
            cases h
          · intro h
            cases h
      refine hcs.trans (ih.trans ⟨.later ⟨b, hc⟩, ?_⟩)
      rintro (h | ⟨-, h⟩)
      · cases hc.symm.trans h
      · exact h

theorem serialize_error_iff {e : ValidationError} :
    l.serialize = .error e ↔ l.fragments = .error e := by
  rw [serialize_eq]
  cases l.fragments <;> simp [Functor.map, Except.map]

theorem toText_error_iff {e : ValidationError} : l.toText = .error e ↔ l.serialize = .error e := by
  rw [toText]
  cases l.serialize <;> simp [Functor.map, Except.map]

theorem fragments_append :
    (l.append m).fragments = do return (← l.fragments) ++ (← m.fragments) := by
  rw [fragments, commands_append, List.mapM_append]
  rfl

theorem serialize_append :
    (l.append m).serialize = do return (← l.serialize) ++ (← m.serialize) := by
  rw [serialize_eq, serialize_eq, serialize_eq, fragments_append]
  cases l.fragments with
  | error e => rfl
  | ok fs =>
    cases m.fragments with
    | error e => rfl
    | ok gs => exact congrArg Except.ok List.flatten_append

theorem text_of_fragments {cs : List Command} {fs : List (List UInt8)}
    (h : List.Forall₂ (fun c f => Command.render c = .ok f) cs fs)
    (hb : ∀ c ∈ cs, ∀ d, c ≠ .bitmap d) : ∃ s, Utf8.encode s = fs.flatten := by
  induction h with
  | nil => exact ⟨"", rfl⟩
  | @cons c f cs fs hc _ ih =>
    rw [List.forall_mem_cons] at hb
    obtain ⟨s, hs⟩ := Command.text_of_render hb.1 hc
    obtain ⟨t, ht⟩ := ih hb.2
    exact ⟨s ++ t, by rw [Utf8.encode_append, hs, ht, List.flatten_cons]⟩

theorem serialize_of_toText (hb : ∀ c ∈ l.commands, ∀ d, c ≠ .bitmap d) {s : String}
    (hs : l.toText = .ok s) : l.serialize = .ok (Utf8.encode s) := by
  obtain ⟨bytes, hbytes, rfl⟩ := map_eq_ok.mp hs
  obtain ⟨fs, hfs, hflat⟩ := map_eq_ok.mp ((serialize_eq l).symm.trans hbytes)
  obtain ⟨t, ht⟩ := text_of_fragments (fragments_eq_ok.mp hfs) hb
  rw [hbytes, ← hflat, ← ht, Utf8.decode_encode]

/-- All that a label of these commands puts out. -/
structure Outputs (cs : List Command) (l : Label) : Prop where
  serialize_ok : (∃ bytes, l.serialize = .ok bytes) ↔ ∀ c ∈ cs, c.Renders
  fragments_ok : (∃ fs, l.fragments = .ok fs) ↔ ∀ c ∈ cs, c.Renders
  toText_ok : (∃ s, l.toText = .ok s) ↔ ∀ c ∈ cs, c.Renders
  rendered : ∀ fs, l.fragments = .ok fs →
    List.Forall₂ (fun c f => Command.render c = .ok f) cs fs ∧
      l.serialize = .ok fs.flatten ∧ l.toText = .ok (Utf8.decode fs.flatten)
  /-- Without bitmaps the text is that of the bytes, with nothing replaced in it. -/
  text : (∀ c ∈ cs, ∀ d, c ≠ .bitmap d) →
    ∀ s, l.toText = .ok s → l.serialize = .ok (Utf8.encode s)
  serialize_error : ∀ e, l.serialize = .error e ↔ Command.FirstError e cs
  fragments_error : ∀ e, l.fragments = .error e ↔ Command.FirstError e cs
  toText_error : ∀ e, l.toText = .error e ↔ Command.FirstError e cs

/-- Of two labels in a row that both fail, it is the error of the first that comes out. -/
theorem outputs_agree (cs ds : List Command) :
    Outputs cs (of cs) ∧
      ((of cs).append (of ds)).serialize =
        do return (← (of cs).serialize) ++ (← (of ds).serialize) := by
  refine ⟨?_, serialize_append⟩
  have hcs := commands_of cs
  generalize of cs = l at hcs
  subst hcs
  have hrendered (fs : List (List UInt8)) (h : l.fragments = .ok fs) :
      l.serialize = .ok fs.flatten ∧ l.toText = .ok (Utf8.decode fs.flatten) := by
    rw [toText, serialize_eq, h]
    exact ⟨rfl, rfl⟩
  refine ⟨?_, fragments_ok_iff, ?_, ?_, ?_, ?_, ?_, ?_⟩
  · rw [← fragments_ok_iff, serialize_eq]
    simp
  · rw [← fragments_ok_iff, toText, serialize_eq]
    simp
  · exact fun fs hfs => ⟨fragments_eq_ok.mp hfs, hrendered fs hfs⟩
  · exact fun hb s hs => serialize_of_toText hb hs
  · exact fun e => serialize_error_iff.trans fragments_error_iff
  · exact fun e => fragments_error_iff
  · exact fun e => toText_error_iff.trans (serialize_error_iff.trans fragments_error_iff)

end Label

end LabelPrinter
