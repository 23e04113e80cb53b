import AegisFeed.Library.BigEndian

namespace Parsing

-- A parser consumes a list from the front, or fails.
abbrev Parser (β α : Type) := StateT (List β) Option α

variable {α β γ : Type}

-- The parser reads the bytes as the value and leaves what follows them, whatever
-- that is.
def Reads (parser : Parser β α) (bytes : List β) (value : α) : Prop :=
  ∀ rest, parser (bytes ++ rest) = some (value, rest)

theorem Reads.pure (value : α) : Reads (pure value : Parser β α) [] value :=
  fun _ => rfl

theorem Reads.bind {parser : Parser β α} {next : α → Parser β γ} {first second : List β}
    {value : α} {result : γ} (hfirst : Reads parser first value)
    (hsecond : Reads (next value) second result) :
    Reads (parser >>= next) (first ++ second) result := by
  intro rest
  rw [List.append_assoc]
  show (parser (first ++ (second ++ rest)) >>= fun p => next p.1 p.2) = some (result, rest)
  rw [hfirst]
  exact hsecond rest

theorem Reads.map {parser : Parser β α} {bytes : List β} {value : α} (f : α → γ)
    (h : Reads parser bytes value) : Reads (f <$> parser) bytes (f value) := by
  intro rest
  show (parser (bytes ++ rest) >>= fun p => some (f p.1, p.2)) = some (f value, rest)
  rw [h]
  rfl

-- The rule of the last field.
theorem Reads.bind_pure {parser : Parser β α} {bytes : List β} {value : α} {f : α → γ}
    (h : Reads parser bytes value) :
    Reads (parser >>= fun value => Pure.pure (f value)) bytes (f value) := by
  rw [← List.append_nil bytes]
  exact h.bind (Reads.pure (f value))

-- Two values read from the same bytes by one parser agree, and so does what follows.
theorem Reads.unique {parser : Parser β α} {first second rest rest' : List β}
    {value value' : α} (h : Reads parser first value) (h' : Reads parser second value')
    (heq : first ++ rest = second ++ rest') : value = value' ∧ rest = rest' := by
  have hsame := (h rest).symm.trans ((congrArg parser heq).trans (h' rest'))
  simpa using hsame

-- All of the input is read.
theorem Reads.complete {parser : Parser β α} {bytes : List β} {value : α}
    (h : Reads parser bytes value) : parser bytes = some (value, []) := by
  have hread := h []
  rwa [List.append_nil] at hread

-- What a parser reads is not a proper beginning of anything else it reads.
theorem Reads.eq_of_isPrefix {parser : Parser β α} {first second : List β} {value value' : α}
    (h : Reads parser first value) (h' : Reads parser second value')
    (hinitial : first <+: second) : first = second := by
  obtain ⟨rest, heq⟩ := hinitial
  have hrest : rest = [] := (h.unique h' (heq.trans (List.append_nil second).symm)).2
  rw [← heq, hrest, List.append_nil]

def take (count : Nat) : Parser β (List β) := fun input =>
  if count ≤ input.length then some (input.take count, input.drop count) else none

theorem reads_take {count : Nat} {bytes : List β} (h : bytes.length = count) :
    Reads (take count) bytes bytes := by
  intro rest
  subst h
  simp [take]

def vector (count : Nat) : Parser β (Vector β count) := do
  let list ← take count
  if h : list.length = count then return ⟨list.toArray, h⟩ else failure

theorem reads_vector {count : Nat} (elements : Vector β count) :
    Reads (vector count) elements.toList elements := by
  have hlength : elements.toList.length = count := elements.length_toList
  rw [← List.append_nil elements.toList]
  refine (reads_take hlength).bind ?_
  rw [dif_pos hlength]
  exact Reads.pure elements

-- Exactly the expected elements.
def expect [DecidableEq β] (bytes : List β) : Parser β Unit := do
  let read ← take bytes.length
  if read = bytes then return () else failure

theorem reads_expect [DecidableEq β] (bytes : List β) : Reads (expect bytes) bytes () := by
  intro rest
  show (take bytes.length (bytes ++ rest) >>= fun p =>
    (if p.1 = bytes then return () else failure : Parser β Unit) p.2) = some ((), rest)
  rw [reads_take rfl rest]
  simp only [Option.bind_eq_bind, Option.bind_some, if_true]
  rfl

def many (parser : Parser β α) : Nat → Parser β (List α)
  | 0 => pure []
  | count + 1 => do
    let value ← parser
    let values ← many parser count
    return value :: values

theorem reads_many {parser : Parser β α} {bytes : α → List β} {values : List α}
    (h : ∀ value ∈ values, Reads parser (bytes value) value) :
    Reads (many parser values.length) (values.flatMap bytes) values := by
  induction values with
  | nil => exact Reads.pure []
  | cons value rest ih =>
    have hrest := ih fun other hother => h other (List.mem_cons_of_mem _ hother)
    rw [List.flatMap_cons]
    exact (h value List.mem_cons_self).bind (hrest.map (List.cons value))

-- A number of a fixed width.
def number (width : Nat) : Parser UInt8 Nat := BigEndian.decode <$> take width

theorem reads_number {width value : Nat} (h : value < 256 ^ width) :
    Reads (number width) (BigEndian.encode width value) value := by
  have hread := (reads_take (BigEndian.length_encode width value)).map BigEndian.decode
  rwa [BigEndian.decode_encode h] at hread

end Parsing
