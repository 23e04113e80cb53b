import AegisFeed.Common.ByteWriter
import Mathlib.Data.Vector.Defs

namespace AegisFeed

def kMoldSessionSize : Nat := 10

abbrev MoldSession := Vector UInt8 kMoldSessionSize

structure MoldSessionDisplay where
  characters : Vector UInt8 kMoldSessionSize
  size : Nat
deriving DecidableEq, Repr

def MoldSessionDisplay.view (display : MoldSessionDisplay) : List UInt8 :=
  display.characters.toList.take display.size

-- The first loop of `make_mold_session`: the index and the character it fails at.
def invalid_character : Nat → List UInt8 → Option (Nat × UInt8)
  | _, [] => none
  | index, character :: rest =>
    if character < 0x20 ∨ character > 0x7E then some (index, character)
    else invalid_character (index + 1) rest

-- The second one, which sets `session[index]` and what follows it.
def copy_characters (session : MoldSession) : Nat → List UInt8 → MoldSession
  | _, [] => session
  | index, character :: rest =>
    copy_characters (session.setIfInBounds index character) (index + 1) rest

def make_mold_session (text : List UInt8) : Result MoldSession :=
  if text = [] ∨ text.length > kMoldSessionSize then
    .error (Error.invalid_session_length (.ofNat text.length) (.ofNat kMoldSessionSize))
  else
    match invalid_character 0 text with
    | some (index, character) =>
      .error (Error.invalid_session_character (.ofNat index) character)
    | none => .ok (copy_characters (Vector.replicate kMoldSessionSize 0x20) 0 text)

-- The copy of `std::span<const std::byte>{session}`.
def MoldSession.span (session : MoldSession) : Span where
  bytes := session.toList
  fits := by
    rw [Vector.length_toList]
    decide

-- It returns its result, the reader after it and what is in `destination` then. The bytes of
-- the source, which are ten, are set in a session of zeros.
def read_mold_session (reader : ByteReader) (destination : MoldSession) :
    Result Unit × ByteReader × MoldSession :=
  match reader.read_bytes (.ofNat kMoldSessionSize) with
  | (.error error, reader) => (.error error, reader, destination)
  | (.ok source, reader) =>
    (.ok (), reader, copy_characters (Vector.replicate kMoldSessionSize 0) 0 source.bytes)

def write_mold_session (writer : ByteWriter) (session : MoldSession) :
    Result Unit × ByteWriter :=
  writer.write_bytes session.span

-- The loop of `format_mold_session` that leaves out the spaces on the right.
def display_size (session : MoldSession) : Nat → Nat
  | 0 => 0
  | size + 1 => if session[size]? = some 0x20 then display_size session size else size + 1

def format_mold_session (session : MoldSession) : MoldSessionDisplay :=
  { characters := session, size := display_size session kMoldSessionSize }

end AegisFeed
