import LabelPrinter.Line
import Mathlib.Data.List.Induction

/-!
What stands between the parts of a line, whatever calls build it.
-/

namespace LabelPrinter.Line

/-- A call on a line. An optional one is absent, or the call that is made of its value. -/
inductive Call where
  | field (text : String)
  | number (value : Float)
  | quoted (content : String)
  | word (token : String)
  | raw (text : String)
  | absent
  | present (inner : Call)

namespace Call

def part? : Call → Option Part
  | field s => some (.field s)
  | number x => some (.number x)
  | quoted s => some (.quoted s)
  | word s => some (.word s)
  | raw s => some (.raw s)
  | absent => none
  | present c => c.part?

def isField : Call → Bool
  | field _ | number _ | quoted _ => true
  | word _ | raw _ | absent => false
  | present c => c.isField

def isAbsent : Call → Bool
  | absent => true
  | present c => c.isAbsent
  | _ => false

def written (separator : String) : Call → String
  | field s => separator ++ s
  | number x => separator ++ LabelPrinter.number x
  | quoted s => separator ++ "\"" ++ s ++ "\""
  | word s => " " ++ s
  | raw s => s
  | absent => ""
  | present c => c.written separator

theorem part?_eq_none {c : Call} : c.part? = none ↔ c.isAbsent = true := by
  induction c with
  | absent => exact iff_of_true rfl rfl
  | present c ih => exact ih
  | _ => exact iff_of_false nofun nofun

end Call

/-- What comes before the next field. -/
def separatorAfter (calls : List Call) : String := if calls.any Call.isField then "," else " "

def call (l : Line) (c : Call) : Line := l.optional c.part?

def build (head : String) (calls : List Call) : Line := calls.foldl call (start head)

variable {head : String}

theorem call_fields (l : Line) (c : Call) :
    (l.call c).fields = if c.isField then l.fields + 1 else l.fields := by
  induction c with
  | present c ih => exact ih
  | _ => rfl

theorem call_text (l : Line) (c : Call) :
    (l.call c).text = l.text ++ c.written (if l.fields = 0 then " " else ",") := by
  induction c with
  | field s => exact String.append_assoc ..
  | number x => exact String.append_assoc ..
  | quoted s =>
    simp only [call, Call.part?, optional, Part.quoted, quote, add, Call.written,
      String.append_assoc]
  | word s => exact String.append_assoc ..
  | raw s => rfl
  | absent => exact String.append_empty.symm
  | present c ih => exact ih

theorem build_snoc (calls : List Call) (c : Call) :
    build head (calls ++ [c]) = (build head calls).call c := by
  rw [build, List.foldl_append]
  rfl

theorem build_fields (calls : List Call) :
    (build head calls).fields = calls.countP Call.isField := by
  induction calls using List.reverseRecOn with
  | nil => rfl
  | append_singleton calls c ih =>
    rw [build_snoc, call_fields, ih, List.countP_append, List.countP_singleton]
    split <;> rfl

theorem separator_build (calls : List Call) :
    (if (build head calls).fields = 0 then " " else ",") = separatorAfter calls := by
  have hzero : (build head calls).fields = 0 ↔ calls.any Call.isField = false := by
    rw [build_fields, List.countP_eq_zero, List.any_eq_false]
  rw [separatorAfter]
  cases h : calls.any Call.isField with
  | false => exact if_pos (hzero.mpr h)
  | true => exact if_neg fun h0 => absurd (hzero.mp h0) (by simp [h])

theorem build_text (calls : List Call) : (build head calls).text =
    head ++ String.join (calls.mapIdx fun i c => c.written (separatorAfter (calls.take i))) := by
  induction calls using List.reverseRecOn with
  | nil => exact String.append_empty.symm
  | append_singleton calls c ih =>
    have hfront : (calls.mapIdx fun i b => b.written (separatorAfter ((calls ++ [c]).take i))) =
        calls.mapIdx fun i b => b.written (separatorAfter (calls.take i)) := by
      rw [List.mapIdx_eq_mapIdx_iff]
      intro i hi
      rw [List.take_append_of_le_length (Nat.le_of_lt hi)]
    rw [build_snoc, call_text, separator_build, ih, List.mapIdx_concat, hfront, String.join_append,
      List.take_left, String.append_assoc]
    simp

/-- What is on a line already matters to the calls to come by its number of fields alone. -/
theorem foldl_call_text {l l' : Line} (h : l.fields = l'.fields) (calls : List Call) :
    ∃ tail, (calls.foldl call l).text = l.text ++ tail ∧
      (calls.foldl call l').text = l'.text ++ tail := by
  induction calls generalizing l l' with
  | nil => exact ⟨"", String.append_empty.symm, String.append_empty.symm⟩
  | cons c calls ih =>
    have hcall : (l.call c).fields = (l'.call c).fields := by
      rw [call_fields, call_fields, h]
    obtain ⟨tail, htext, htext'⟩ := ih hcall
    rw [call_text, String.append_assoc] at htext htext'
    rw [← h] at htext'
    exact ⟨_, htext, htext'⟩

theorem build_eq_of (calls : List Call) :
    build head calls = Line.of head (calls.filterMap Call.part?) := by
  induction calls using List.reverseRecOn with
  | nil => rfl
  | append_singleton calls c ih =>
    rw [build_snoc, ih, List.filterMap_append, of, of, List.foldl_append, List.filterMap_cons, call]
    cases c.part? <;> rfl

theorem build_present (calls : List Call) :
    build head (calls.filter (!·.isAbsent)) = build head calls := by
  have hpart : (fun c : Call => if (!c.isAbsent) = true then c.part? else none) = Call.part? := by
    funext c
    cases h : c.isAbsent with
    | false => rfl
    | true => exact (Call.part?_eq_none.mpr h).symm
  rw [build_eq_of, List.filterMap_filter, hpart, ← build_eq_of]

/-- Every field is set off by a separator that the fields before it alone decide on. -/
theorem build_separated (head : String) (calls : List Call) :
    (build head calls).finish = Utf8.encode
      (head ++ String.join (calls.mapIdx fun i c => c.written (separatorAfter (calls.take i))) ++
        "\n") ∧
    (∀ before c after, c.isField = false → ∃ tail,
      (build head (before ++ after)).text = (build head before).text ++ tail ∧
      (build head (before ++ c :: after)).text =
        (build head before).text ++ c.written (separatorAfter before) ++ tail) ∧
    (build head (calls.filter (!·.isAbsent))).finish = (build head calls).finish := by
  refine ⟨?_, fun before c after hc => ?_, ?_⟩
  · rw [finish, build_text]
  · have hfields : (build head before).fields = ((build head before).call c).fields := by
      rw [call_fields, hc]
      rfl
    obtain ⟨tail, htext, htext'⟩ := foldl_call_text hfields after
    rw [call_text, separator_build] at htext'
    refine ⟨tail, ?_, ?_⟩
    · rw [build, List.foldl_append]
      exact htext
    · rw [build, List.foldl_append]
      exact htext'
  · rw [build_present]

theorem build_separated_word : (Call.word "OFF").isField = false ∧ ∃ tail,
    (build "SET" [.present (.number 2.5), .absent, .quoted "a\"b"]).text =
      (build "SET" [.present (.number 2.5)]).text ++ tail ∧
    (build "SET" [.present (.number 2.5), .word "OFF", .absent, .quoted "a\"b"]).text =
      (build "SET" [.present (.number 2.5)]).text ++ " OFF" ++ tail := by
  obtain ⟨-, hapart, -⟩ := build_separated "SET" []
  exact ⟨rfl, hapart [.present (.number 2.5)] (.word "OFF") [.absent, .quoted "a\"b"] rfl⟩

example : (build "SET" [.word "A", .field "1", .absent, .raw "=", .present (.quoted "b")]).text =
    "SET A 1=,\"b\"" := by decide

end LabelPrinter.Line
