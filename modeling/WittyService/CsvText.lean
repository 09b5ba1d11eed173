import Mathlib.Algebra.GroupWithZero.Nat
import Mathlib.Tactic.SplitIfs
import WittyService.TextParts

/-! Comma separated values as Python's `csv` module writes and reads them: fields are quoted when
they have to be, the reader is strict, and it takes the lines that end with a line feed, a carriage
return or both. -/
namespace CsvText

variable {α : Type*}

structure Dialect (α : Type*) where
  delimiter : α
  quote : α
  cr : α
  lf : α
  distinct : [delimiter, quote, cr, lf].Nodup

namespace Dialect

variable (d : Dialect α)

theorem quote_ne_delimiter : d.quote ≠ d.delimiter := by
  have h := d.distinct
  simp only [List.nodup_cons, List.mem_cons, not_or] at h
  exact fun heq => h.1.1 heq.symm

theorem cr_ne_quote : d.cr ≠ d.quote := by
  have h := d.distinct
  simp only [List.nodup_cons, List.mem_cons, not_or] at h
  exact fun heq => h.2.1.1 heq.symm

theorem cr_ne_delimiter : d.cr ≠ d.delimiter := by
  have h := d.distinct
  simp only [List.nodup_cons, List.mem_cons, not_or] at h
  exact fun heq => h.1.2.1 heq.symm

theorem cr_ne_lf : d.cr ≠ d.lf := by
  have h := d.distinct
  simp only [List.nodup_cons, List.mem_cons, not_or] at h
  exact h.2.2.1.1

end Dialect

inductive Mode where
  | startRecord
  | startField
  | inField
  | inQuotedField
  | quoteInQuotedField
  | eatCrnl
  deriving DecidableEq, Repr

inductive Error where
  | fieldTooLong
  | unexpectedEnd
  | expectedDelimiter
  | newLineInField
  deriving DecidableEq, Repr

/-- The reader inside of a record: the field it is at and the fields before it. -/
structure Reader (α : Type*) where
  mode : Mode := .startRecord
  field : List α := []
  fields : List (List α) := []
  deriving DecidableEq

variable [DecidableEq α] (d : Dialect α)

namespace Dialect

def isLineEnd (c : α) : Bool := c = d.cr || c = d.lf

def isSpecial (c : α) : Bool := c = d.delimiter || c = d.quote || d.isLineEnd c

end Dialect

def escape (field : List α) : List α :=
  field.flatMap fun c => if c = d.quote then [d.quote, d.quote] else [c]

def writeField (field : List α) : List α :=
  if field.any d.isSpecial then d.quote :: escape d field ++ [d.quote] else field

def writeRow (fields : List (List α)) : List α :=
  let record := [d.delimiter].intercalate (fields.map (writeField d))
  (if record = [] ∧ fields ≠ [] then [d.quote, d.quote] else record) ++ [d.cr, d.lf]

def write (rows : List (List (List α))) : List α := rows.flatMap (writeRow d)

def lines : List α → List (List α)
  | [] => []
  | [c] => [[c]]
  | c :: c' :: rest =>
    if c = d.lf then [c] :: lines (c' :: rest)
    else if c = d.cr then
      if c' = d.lf then [c, c'] :: lines rest else [c] :: lines (c' :: rest)
    else match lines (c' :: rest) with
      | [] => [[c]]
      | line :: others => (c :: line) :: others

namespace Reader

def save (r : Reader α) (mode : Mode) : Reader α :=
  { mode, fields := r.fields ++ [r.field] }

def add (limit : ℕ) (r : Reader α) (mode : Mode) (c : α) : Except Error (Reader α) :=
  if limit ≤ r.field.length then .error .fieldTooLong
  else .ok { r with mode, field := r.field ++ [c] }

/-- The beginning of a field. A line is followed by `none`. -/
def startField (limit : ℕ) (r : Reader α) : Option α → Except Error (Reader α)
  | none => .ok (r.save .startRecord)
  | some c =>
    if d.isLineEnd c then .ok (r.save .eatCrnl)
    else if c = d.quote then .ok { r with mode := .inQuotedField }
    else if c = d.delimiter then .ok (r.save .startField)
    else r.add limit .inField c

def step (limit : ℕ) (r : Reader α) (c : Option α) : Except Error (Reader α) :=
  match r.mode, c with
  | .startRecord, none => .ok r
  | .startRecord, some c =>
    if d.isLineEnd c then .ok { r with mode := .eatCrnl } else r.startField d limit (some c)
  | .startField, c => r.startField d limit c
  | .inField, none => .ok (r.save .startRecord)
  | .inField, some c =>
    if d.isLineEnd c then .ok (r.save .eatCrnl)
    else if c = d.delimiter then .ok (r.save .startField)
    else r.add limit .inField c
  | .inQuotedField, none => .ok r
  | .inQuotedField, some c =>
    if c = d.quote then .ok { r with mode := .quoteInQuotedField }
    else r.add limit .inQuotedField c
  | .quoteInQuotedField, none => .ok (r.save .startRecord)
  | .quoteInQuotedField, some c =>
    if c = d.quote then r.add limit .inQuotedField c
    else if c = d.delimiter then .ok (r.save .startField)
    else if d.isLineEnd c then .ok (r.save .eatCrnl)
    else .error .expectedDelimiter
  | .eatCrnl, none => .ok { r with mode := .startRecord }
  | .eatCrnl, some c => if d.isLineEnd c then .ok r else .error .newLineInField

def run (limit : ℕ) : List α → Reader α → Except Error (Reader α)
  | [], r => .ok r
  | c :: cs, r =>
    match r.step d limit (some c) with
    | .ok r => run limit cs r
    | .error error => .error error

end Reader

def readLines (limit : ℕ) : List (List α) → Reader α → Except Error (List (List (List α)))
  | [], r => if r.field ≠ [] ∨ r.mode = .inQuotedField then .error .unexpectedEnd else .ok []
  | line :: rest, r =>
    match (r.run d limit line).bind fun r => r.step d limit none with
    | .error error => .error error
    | .ok r =>
      if r.mode = .startRecord then
        match readLines limit rest {} with
        | .ok rows => .ok (r.fields :: rows)
        | .error error => .error error
      else readLines limit rest r

def read (limit : ℕ) (t : List α) : Except Error (List (List (List α))) :=
  readLines d limit (lines d t) {}

variable {d} {limit : ℕ} {field : List α} {fields : List (List α)} {c : α}

def Inline (d : Dialect α) (t : List α) : Prop := ∀ c ∈ t, d.isLineEnd c = false

namespace Dialect

variable (d : Dialect α)

theorem isLineEnd_cr : d.isLineEnd d.cr := by
  rw [isLineEnd, decide_eq_true rfl, Bool.true_or]

theorem isLineEnd_lf : d.isLineEnd d.lf := by
  rw [isLineEnd, decide_eq_true rfl, Bool.or_true]

theorem isLineEnd_delimiter : d.isLineEnd d.delimiter = false := by
  have h := d.distinct
  simp only [List.nodup_cons, List.mem_cons, not_or] at h
  simp [isLineEnd, decide_eq_false h.1.2.1, decide_eq_false h.1.2.2.1]

theorem isLineEnd_quote : d.isLineEnd d.quote = false := by
  have h := d.distinct
  simp only [List.nodup_cons, List.mem_cons, not_or] at h
  simp [isLineEnd, decide_eq_false h.2.1.1, decide_eq_false h.2.1.2.1]

end Dialect

namespace Reader

theorem run_append (cs cs' : List α) (r : Reader α) :
    r.run d limit (cs ++ cs') = (r.run d limit cs).bind fun r => r.run d limit cs' := by
  induction cs generalizing r with
  | nil => rfl
  | cons c cs ih =>
    rw [List.cons_append, run, run]
    cases r.step d limit (some c) with
    | ok r => exact ih r
    | error error => rfl

variable {cs front : List α} {r : Reader α}

theorem run_of_ok {r' : Reader α} (h : r.run d limit cs = .ok r')
    (cs' : List α) : r.run d limit (cs ++ cs') = r'.run d limit cs' := by
  rw [run_append, h]
  rfl

theorem run_of_error {error : Error} (h : r.run d limit cs = .error error) (cs' : List α) :
    r.run d limit (cs ++ cs') = .error error := by
  rw [run_append, h]
  rfl

theorem run_plain (hplain : field.any d.isSpecial = false) (hfront : front.length ≤ limit) :
    (⟨.inField, front, fields⟩ : Reader α).run d limit field =
      if front.length + field.length ≤ limit then .ok ⟨.inField, front ++ field, fields⟩
      else .error .fieldTooLong := by
  induction field generalizing front with
  | nil =>
    rw [List.length_nil, Nat.add_zero, if_pos hfront, List.append_nil]
    rfl
  | cons c field ih =>
    rw [List.any_cons, Bool.or_eq_false_iff] at hplain
    obtain ⟨hc, hplain⟩ := hplain
    simp only [Dialect.isSpecial, Bool.or_eq_false_iff, decide_eq_false_iff_not] at hc
    obtain ⟨⟨hdelimiter, -⟩, hend⟩ := hc
    simp only [run, step, hend, hdelimiter, Bool.false_eq_true, if_false, add]
    by_cases hfull : limit ≤ front.length
    · rw [if_pos hfull, if_neg (by rw [List.length_cons]; omega)]
    · have hnext : (front ++ [c]).length ≤ limit := by
        rw [List.length_append, List.length_singleton]
        omega
      rw [if_neg hfull]
      refine (ih hplain hnext).trans ?_
      rw [List.length_append, List.length_singleton, List.append_assoc, List.singleton_append,
        List.length_cons, Nat.add_assoc, Nat.add_comm 1]

theorem run_escape (hfront : front.length ≤ limit) :
    (⟨.inQuotedField, front, fields⟩ : Reader α).run d limit (escape d field) =
      if front.length + field.length ≤ limit then
        .ok ⟨.inQuotedField, front ++ field, fields⟩
      else .error .fieldTooLong := by
  induction field generalizing front with
  | nil =>
    rw [List.length_nil, Nat.add_zero, if_pos hfront, List.append_nil]
    rfl
  | cons c field ih =>
    have hstep : ∀ rest : List α, (⟨.inQuotedField, front, fields⟩ : Reader α).run d limit
        ((if c = d.quote then [d.quote, d.quote] else [c]) ++ rest) =
          if limit ≤ front.length then .error .fieldTooLong
          else (⟨.inQuotedField, front ++ [c], fields⟩ : Reader α).run d limit rest := by
      intro rest
      by_cases hquote : c = d.quote
      · rw [if_pos hquote, hquote]
        simp only [List.cons_append, List.nil_append, run, step, if_true, add]
        by_cases hfull : limit ≤ front.length
        · simp only [if_pos hfull]
        · simp only [if_neg hfull]
      · simp only [List.cons_append, List.nil_append, run, step, hquote, if_false, add]
        by_cases hfull : limit ≤ front.length
        · simp only [if_pos hfull]
        · simp only [if_neg hfull]
    rw [escape, List.flatMap_cons, hstep]
    by_cases hfull : limit ≤ front.length
    · rw [if_pos hfull, if_neg (by rw [List.length_cons]; omega)]
    · have hnext : (front ++ [c]).length ≤ limit := by
        rw [List.length_append, List.length_singleton]
        omega
      rw [if_neg hfull]
      refine (ih hnext).trans ?_
      rw [List.length_append, List.length_singleton, List.append_assoc, List.singleton_append,
        List.length_cons, Nat.add_assoc, Nat.add_comm 1]

theorem run_quoted (d : Dialect α) (limit : ℕ) (fields : List (List α)) (field : List α) :
    (⟨.startField, [], fields⟩ : Reader α).run d limit (d.quote :: escape d field) =
      if field.length ≤ limit then .ok ⟨.inQuotedField, field, fields⟩
      else .error .fieldTooLong := by
  have hopen : (⟨.startField, [], fields⟩ : Reader α).run d limit [d.quote] =
      .ok ⟨.inQuotedField, [], fields⟩ := by
    simp [run, step, startField, d.isLineEnd_quote]
  rw [← List.singleton_append, run_of_ok hopen, run_escape (Nat.zero_le limit),
    List.length_nil, Nat.zero_add, List.nil_append]

theorem run_unquoted (limit : ℕ) (fields : List (List α)) (hplain : field.any d.isSpecial = false)
    (hne : field ≠ []) :
    (⟨.startField, [], fields⟩ : Reader α).run d limit field =
      if field.length ≤ limit then .ok ⟨.inField, field, fields⟩
      else .error .fieldTooLong := by
  obtain ⟨first, rest, rfl⟩ := List.exists_cons_of_ne_nil hne
  rw [List.any_cons, Bool.or_eq_false_iff] at hplain
  obtain ⟨hfirst, hrest⟩ := hplain
  simp only [Dialect.isSpecial, Bool.or_eq_false_iff, decide_eq_false_iff_not] at hfirst
  obtain ⟨⟨hdelimiter, hquote⟩, hend⟩ := hfirst
  by_cases hroom : limit ≤ 0
  · have hlong : ¬ (first :: rest).length ≤ limit := by
      rw [List.length_cons]
      omega
    simp only [run, step, startField, hend, hquote, hdelimiter, Bool.false_eq_true, if_false, add,
      List.length_nil, hroom, if_true, hlong]
  · have hopen : (⟨.startField, [], fields⟩ : Reader α).run d limit [first] =
        .ok ⟨.inField, [first], fields⟩ := by
      simp [run, step, startField, hend, hquote, hdelimiter, add, hroom]
    have hone : [first].length ≤ limit := by
      rw [List.length_singleton]
      omega
    rw [← List.singleton_append, run_of_ok hopen, run_plain hrest hone, ← List.length_append]

def afterField (d : Dialect α) (c : α) (fields : List (List α)) : Reader α :=
  { mode := if c = d.cr then .eatCrnl else .startField, fields }

theorem run_end (hc : c = d.delimiter ∨ c = d.cr) {mode : Mode}
    (hmode : mode = .startField ∧ field = [] ∨ mode = .inField ∨ mode = .quoteInQuotedField) :
    (⟨mode, field, fields⟩ : Reader α).run d limit [c] =
      .ok (afterField d c (fields ++ [field])) := by
  obtain rfl | rfl := hc
  · have hne := d.cr_ne_delimiter.symm
    obtain ⟨rfl, rfl⟩ | rfl | rfl := hmode
    · simp only [run, step, startField, d.isLineEnd_delimiter, d.quote_ne_delimiter.symm,
        Bool.false_eq_true, if_false, if_true, save, afterField, hne]
    · simp [run, step, d.isLineEnd_delimiter, save, afterField, hne]
    · simp only [run, step, d.quote_ne_delimiter.symm, if_false, if_true, save, afterField, hne]
  · obtain ⟨rfl, rfl⟩ | rfl | rfl := hmode
    · simp [run, step, startField, d.isLineEnd_cr, save, afterField]
    · simp [run, step, d.isLineEnd_cr, save, afterField]
    · simp [run, step, d.cr_ne_quote, d.cr_ne_delimiter, d.isLineEnd_cr, save, afterField]

theorem run_writeField (hlen : field.length ≤ limit) (hc : c = d.delimiter ∨ c = d.cr)
    (fields : List (List α)) :
    (⟨.startField, [], fields⟩ : Reader α).run d limit (writeField d field ++ [c]) =
      .ok (afterField d c (fields ++ [field])) := by
  unfold writeField
  split
  · have hfield := run_quoted d limit fields field
    rw [if_pos hlen] at hfield
    have hclose : (⟨.inQuotedField, field, fields⟩ : Reader α).run d limit [d.quote] =
        .ok ⟨.quoteInQuotedField, field, fields⟩ := by
      simp [run, step]
    rw [List.append_assoc, run_of_ok hfield, run_of_ok hclose]
    exact run_end hc (.inr (.inr rfl))
  · next hplain =>
    rw [Bool.not_eq_true] at hplain
    by_cases hne : field = []
    · rw [hne, List.nil_append]
      exact run_end hc (.inl ⟨rfl, rfl⟩)
    · have hfield := run_unquoted limit fields hplain hne
      rw [if_pos hlen] at hfield
      rw [run_of_ok hfield]
      exact run_end hc (.inr (.inl rfl))

theorem run_writeField_too_long (hlen : limit < field.length) (fields : List (List α))
    (rest : List α) :
    (⟨.startField, [], fields⟩ : Reader α).run d limit (writeField d field ++ rest) =
      .error .fieldTooLong := by
  unfold writeField
  split
  · have hfield := run_quoted d limit fields field
    rw [if_neg (by omega)] at hfield
    rw [List.append_assoc, run_of_error hfield]
  · next hplain =>
    rw [Bool.not_eq_true] at hplain
    have hne : field ≠ [] := by
      rintro rfl
      cases hlen
    have hfield := run_unquoted limit fields hplain hne
    rw [if_neg (by omega)] at hfield
    exact run_of_error hfield rest

theorem run_record {row : List (List α)} (hne : row ≠ []) (fields : List (List α)) :
    (⟨.startField, [], fields⟩ : Reader α).run d limit
        ([d.delimiter].intercalate (row.map (writeField d)) ++ [d.cr]) =
      if ∀ field ∈ row, field.length ≤ limit then .ok (afterField d d.cr (fields ++ row))
      else .error .fieldTooLong := by
  induction row generalizing fields with
  | nil => exact absurd rfl hne
  | cons field row ih =>
    by_cases hlen : field.length ≤ limit
    · cases row with
      | nil =>
        rw [if_pos fun other hother => List.mem_singleton.mp hother ▸ hlen, List.map_singleton,
          List.intercalate_singleton]
        exact run_writeField hlen (.inr rfl) fields
      | cons field' row =>
        have hafter : afterField d d.delimiter (fields ++ [field]) =
            ⟨.startField, [], fields ++ [field]⟩ := by
          rw [afterField, if_neg d.cr_ne_delimiter.symm]
        have hfirst := run_writeField hlen (.inl (Eq.refl d.delimiter)) fields
        rw [List.map_cons, List.map_cons, List.intercalate_cons_cons, List.append_assoc,
          run_of_ok hfirst, hafter, ← List.map_cons, ih (List.cons_ne_nil _ _)]
        simp [hlen]
    · have hall : ¬ ∀ other ∈ field :: row, other.length ≤ limit := fun h =>
        hlen (h field List.mem_cons_self)
      rw [if_neg hall]
      have hlong : ∀ rest : List α, (⟨.startField, [], fields⟩ : Reader α).run d limit
          (writeField d field ++ rest) = .error .fieldTooLong :=
        run_writeField_too_long (by omega) fields
      cases row with
      | nil =>
        rw [List.map_singleton, List.intercalate_singleton]
        exact hlong _
      | cons field' row =>
        rw [List.map_cons, List.map_cons, List.intercalate_cons_cons, List.append_assoc,
          List.append_assoc]
        exact hlong _

end Reader

def record (d : Dialect α) (row : List (List α)) : List α :=
  [d.delimiter].intercalate (row.map (writeField d))

theorem writeField_head {first : α} (h : (writeField d field).head? = some first) :
    d.isLineEnd first = false := by
  unfold writeField at h
  split at h
  · obtain rfl := Option.some.inj h
    exact d.isLineEnd_quote
  · next hplain =>
    rw [Bool.not_eq_true] at hplain
    have hfirst := List.any_eq_false.mp hplain first (List.mem_of_head? h)
    simp only [Dialect.isSpecial, Bool.or_eq_true, not_or, Bool.not_eq_true] at hfirst
    exact hfirst.2

section

variable {row : List (List α)} (h : 2 ≤ row.length)
include h

theorem exists_record_cons :
    ∃ first rest, record d row = first :: rest ∧ d.isLineEnd first = false := by
  obtain ⟨field, field', row, rfl⟩ : ∃ field field' row', row = field :: field' :: row' := by
    match row, h with
    | field :: field' :: row, _ => exact ⟨field, field', row, rfl⟩
  rw [record, List.map_cons, List.map_cons, List.intercalate_cons_cons, List.append_assoc]
  cases hwritten : writeField d field with
  | nil => exact ⟨d.delimiter, _, rfl, d.isLineEnd_delimiter⟩
  | cons first rest =>
    have hhead : (writeField d field).head? = some first := by rw [hwritten, List.head?_cons]
    exact ⟨first, _, rfl, writeField_head hhead⟩

theorem writeRow_eq :
    writeRow d row = record d row ++ [d.cr] ++ [d.lf] := by
  obtain ⟨first, rest, heq, -⟩ := exists_record_cons (d := d) h
  have hne : record d row ≠ [] := by
    rw [heq]
    exact List.cons_ne_nil first rest
  rw [writeRow, ← record]
  simp [hne]

theorem run_writeRow :
    (({} : Reader α).run d limit (writeRow d row)).bind (fun r => r.step d limit none) =
      if ∀ field ∈ row, field.length ≤ limit then .ok { fields := row }
      else .error .fieldTooLong := by
  obtain ⟨first, rest, heq, hfirst⟩ := exists_record_cons (d := d) h
  have hstart : ({} : Reader α).run d limit (record d row ++ [d.cr]) =
      (⟨.startField, [], []⟩ : Reader α).run d limit (record d row ++ [d.cr]) := by
    rw [heq]
    simp [Reader.run, Reader.step, hfirst, Reader.startField, Reader.add, Reader.save]
  have hne : row ≠ [] := by
    rintro rfl
    cases h
  have hrecord : (⟨.startField, [], []⟩ : Reader α).run d limit (record d row ++ [d.cr]) =
      if ∀ field ∈ row, field.length ≤ limit then .ok (Reader.afterField d d.cr ([] ++ row))
      else .error .fieldTooLong := Reader.run_record hne []
  rw [← hstart] at hrecord
  rw [writeRow_eq h, Reader.run_append, hrecord]
  split
  · simp only [Except.bind, Reader.run, Reader.step, Reader.afterField, if_true, d.isLineEnd_lf,
      List.nil_append]
  · rfl

end

theorem lines_append {body : List α} (h : Inline d body) (rest : List α) :
    lines d (body ++ d.cr :: d.lf :: rest) = (body ++ [d.cr, d.lf]) :: lines d rest := by
  induction body with
  | nil =>
    simp [lines, d.cr_ne_lf]
  | cons c body ih =>
    have hc := h c List.mem_cons_self
    simp only [Dialect.isLineEnd, Bool.or_eq_false_iff, decide_eq_false_iff_not] at hc
    have hbody := ih fun c' hc' => h c' (List.mem_cons_of_mem c hc')
    obtain ⟨c', tail, htail⟩ : ∃ c' tail, body ++ d.cr :: d.lf :: rest = c' :: tail :=
      List.exists_cons_of_ne_nil (by simp)
    rw [List.cons_append, htail, lines, if_neg hc.2, if_neg hc.1, ← htail, hbody]
    rfl

theorem inline_writeField (h : Inline d field) : Inline d (writeField d field) := by
  unfold writeField
  split
  · intro c hc
    obtain rfl | hc := List.mem_cons.mp hc
    · exact d.isLineEnd_quote
    · obtain hc | hc := List.mem_append.mp hc
      · obtain ⟨c', hc', hmem⟩ := List.mem_flatMap.mp hc
        split at hmem
        · obtain rfl : c = d.quote := by simpa using hmem
          exact d.isLineEnd_quote
        · rw [List.mem_singleton.mp hmem]
          exact h c' hc'
      · rw [List.mem_singleton.mp hc]
        exact d.isLineEnd_quote
  · exact h

variable {row : List (List α)} {rows : List (List (List α))}

theorem inline_record (h : ∀ field ∈ row, Inline d field) :
    Inline d (record d row) := by
  intro c hc
  obtain hc | ⟨part, hpart, hc⟩ := TextParts.of_mem_intercalate hc
  · rw [List.mem_singleton.mp hc]
    exact d.isLineEnd_delimiter
  · obtain ⟨field, hfield, rfl⟩ := List.mem_map.mp hpart
    exact inline_writeField (h field hfield) c hc

theorem read_write (limit : ℕ) (hinline : ∀ row ∈ rows, ∀ field ∈ row, Inline d field)
    (hwide : ∀ row ∈ rows, 2 ≤ row.length) :
    read d limit (write d rows) =
      if ∀ row ∈ rows, ∀ field ∈ row, field.length ≤ limit then .ok rows
      else .error .fieldTooLong := by
  induction rows with
  | nil =>
    rfl
  | cons row rows ih =>
    obtain ⟨hrow, hrows⟩ := List.forall_mem_cons.mp hinline
    obtain ⟨hwide, hwides⟩ := List.forall_mem_cons.mp hwide
    have hlines : lines d (write d (row :: rows)) = writeRow d row :: lines d (write d rows) := by
      have heq := lines_append (inline_record hrow) (write d rows)
      rw [write, List.flatMap_cons, ← write, writeRow_eq hwide]
      simp only [List.append_assoc, List.cons_append, List.nil_append] at heq ⊢
      exact heq
    have hread := ih hrows hwides
    rw [read] at hread
    rw [read, hlines, readLines, run_writeRow hwide]
    by_cases hfits : ∀ field ∈ row, field.length ≤ limit
    · simp only [if_pos hfits, if_true, hread, List.forall_mem_cons]
      by_cases hall : ∀ row ∈ rows, ∀ field ∈ row, field.length ≤ limit
      · simp only [if_pos hall, if_pos (And.intro hfits hall)]
      · simp only [if_neg hall, if_neg fun h => hall (And.right h)]
    · simp [if_neg hfits, if_neg fun h => hfits (And.left h)]

theorem mem_writeField_iff : c ∈ writeField d field ↔
    c ∈ field ∨ c = d.quote ∧ field.any d.isSpecial := by
  unfold writeField
  split
  · next hspecial =>
    simp only [List.mem_append, List.mem_cons, escape, List.mem_flatMap, List.not_mem_nil,
      or_false, hspecial, and_true]
    constructor
    · rintro ((hc | ⟨c', hc', hmem⟩) | hc)
      · exact .inr hc
      · split at hmem
        · exact .inr (by simpa using hmem)
        · exact .inl (List.mem_singleton.mp hmem ▸ hc')
      · exact .inr hc
    · rintro (hc | hc)
      · refine .inl (.inr ⟨c, hc, ?_⟩)
        split
        · next hquote =>
          rw [hquote]
          exact List.mem_cons_self
        · exact List.mem_singleton_self c
      · exact .inr hc
  · next hplain => simp only [hplain, Bool.false_eq_true, and_false, or_false]

theorem mem_write (hrow : row ∈ rows)
    (hfield : field ∈ row) (hc : c ∈ field) : c ∈ write d rows := by
  refine List.mem_flatMap.mpr ⟨row, hrow, List.mem_append_left _ ?_⟩
  have hrecord : c ∈ record d row :=
    TextParts.mem_intercalate (List.mem_map_of_mem hfield) (mem_writeField_iff.mpr (.inl hc))
  rw [← record]
  split
  · next hempty =>
    rw [hempty.1] at hrecord
    cases hrecord
  · exact hrecord

theorem of_mem_write (hc : c ∈ write d rows) :
    c ∈ [d.delimiter, d.quote, d.cr, d.lf] ∨ ∃ row ∈ rows, ∃ field ∈ row, c ∈ field := by
  obtain ⟨row, hrow, hc⟩ := List.mem_flatMap.mp hc
  obtain hc | hc := List.mem_append.mp hc
  · have hquotes : c = d.quote → c ∈ [d.delimiter, d.quote, d.cr, d.lf] := fun heq =>
      heq ▸ List.mem_cons_of_mem _ List.mem_cons_self
    split at hc
    · exact .inl (hquotes (by simpa using hc))
    · obtain hc | ⟨part, hpart, hc⟩ := TextParts.of_mem_intercalate hc
      · rw [List.mem_singleton.mp hc]
        exact .inl List.mem_cons_self
      · obtain ⟨field, hfield, rfl⟩ := List.mem_map.mp hpart
        obtain hc | ⟨hc, -⟩ := mem_writeField_iff.mp hc
        · exact .inr ⟨row, hrow, field, hfield, hc⟩
        · exact .inl (hquotes hc)
  · refine .inl (List.mem_cons_of_mem _ (List.mem_cons_of_mem _ ?_))
    exact hc

section
variable (w : α → ℕ)

def fieldWeight (d : Dialect α) (field : List α) : ℕ :=
  (field.map w).sum +
    if field.any d.isSpecial then (field.count d.quote + 2) * w d.quote else 0

variable (d : Dialect α)

theorem sum_escape (field : List α) :
    ((escape d field).map w).sum = (field.map w).sum + field.count d.quote * w d.quote := by
  induction field with
  | nil => rw [List.count_nil, Nat.zero_mul, Nat.add_zero, escape, List.flatMap_nil]
  | cons c field ih =>
    have hcons : escape d (c :: field) =
        (if c = d.quote then [d.quote, d.quote] else [c]) ++ escape d field :=
      List.flatMap_cons
    rw [hcons, List.map_append, List.sum_append, ih, List.map_cons, List.sum_cons]
    by_cases hc : c = d.quote
    · rw [if_pos hc, hc, List.count_cons_self, List.map_cons, List.map_singleton, List.sum_cons,
        List.sum_singleton, Nat.add_mul, Nat.one_mul]
      omega
    · rw [if_neg hc, List.count_cons_of_ne hc, List.map_singleton, List.sum_singleton]
      omega

theorem sum_writeField (field : List α) :
    ((writeField d field).map w).sum = fieldWeight w d field := by
  unfold writeField fieldWeight
  split
  · rw [List.cons_append, List.map_cons, List.sum_cons, List.map_append, List.sum_append,
      sum_escape, List.map_singleton, List.sum_singleton, Nat.add_mul]
    omega
  · rw [Nat.add_zero]

theorem sum_writeRow (first second : List α) : ((writeRow d [first, second]).map w).sum =
      fieldWeight w d first + fieldWeight w d second + (w d.delimiter + w d.cr + w d.lf) := by
  have hrecord : record d [first, second] =
      writeField d first ++ [d.delimiter] ++ writeField d second := by
    rw [record, List.map_cons, List.map_singleton, List.intercalate_cons_cons,
      List.intercalate_singleton, List.append_assoc]
  have hwide : 2 ≤ [first, second].length := Nat.le_refl 2
  rw [writeRow_eq hwide, hrecord]
  simp only [List.map_append, List.sum_append, List.map_singleton, List.sum_singleton,
    sum_writeField]
  omega

end

end CsvText
