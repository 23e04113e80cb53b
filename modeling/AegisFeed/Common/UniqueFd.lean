import AegisFeed.Library.FiniteMap
import AegisFeed.Library.Machine

namespace AegisFeed

open Std

-- The descriptors that `::close` was called with so far, `errno`, and what a call of
-- `::close` leaves in it, which may depend on all the calls.
structure Process where
  closed : List Int32 := []
  errno : Int32 := 0
  close_errno : List Int32 → Int32 := fun _ => 0

def Process.close (process : Process) (descriptor : Int32) : Process :=
  let closed := process.closed ++ [descriptor]
  { process with closed, errno := process.close_errno closed }

namespace UniqueFd

def kInvalidDescriptor : Int32 := -1

def normalize (descriptor : Int32) : Int32 :=
  if descriptor ≥ 0 then descriptor else kInvalidDescriptor

theorem normalize_of_valid {descriptor : Int32} (hvalid : descriptor ≥ 0) :
    normalize descriptor = descriptor :=
  if_pos hvalid

theorem normalize_of_invalid {descriptor : Int32} (hinvalid : ¬descriptor ≥ 0) :
    normalize descriptor = kInvalidDescriptor :=
  if_neg hinvalid

theorem normalize_normalize (descriptor : Int32) :
    normalize (normalize descriptor) = normalize descriptor := by
  by_cases hvalid : descriptor ≥ 0
  · rw [normalize_of_valid hvalid, normalize_of_valid hvalid]
  · rw [normalize_of_invalid hvalid]
    decide

def close_preserving_errno (process : Process) (descriptor : Int32) : Process :=
  if descriptor < 0 then process
  else
    let saved_errno := process.errno
    { process.close descriptor with errno := saved_errno }

end UniqueFd

structure UniqueFd where
  descriptor : Int32 := UniqueFd.kInvalidDescriptor
  normalized : UniqueFd.normalize descriptor = descriptor := by decide
deriving DecidableEq

namespace UniqueFd

-- The constructor from an `int`.
def of_descriptor (descriptor : Int32) : UniqueFd where
  descriptor := normalize descriptor
  normalized := normalize_normalize descriptor

def get (fd : UniqueFd) : Int32 := fd.descriptor

def valid (fd : UniqueFd) : Bool := fd.descriptor ≥ 0

-- What `release` returns, and the object after it.
def release (fd : UniqueFd) : Int32 × UniqueFd :=
  (fd.descriptor, {})

-- The object constructed from `other`, and `other` after it.
def move_construct (other : UniqueFd) : UniqueFd × UniqueFd :=
  ({ descriptor := other.release.1, normalized := other.normalized }, other.release.2)

def reset (fd : UniqueFd) (descriptor : Int32) (process : Process) : UniqueFd × Process :=
  if fd.descriptor = normalize descriptor then (fd, process)
  else
    let previous := fd.descriptor
    (of_descriptor descriptor, close_preserving_errno process previous)

-- The objects after the swap.
def swap (fd other : UniqueFd) : UniqueFd × UniqueFd :=
  (other, fd)

def destroy (fd : UniqueFd) (process : Process) : Process :=
  close_preserving_errno process fd.release.1

end UniqueFd

-- The live objects of a process by their addresses.
structure World where
  objects : ExtTreeMap Nat UniqueFd compare := ∅
  process : Process := {}

namespace World

def construct (world : World) (address : Nat) (fd : UniqueFd) : World :=
  { world with objects := world.objects.insert address fd }

def move_construct (world : World) (address other : Nat) : World :=
  match world.objects[other]? with
  | none => world
  | some fd =>
    let (fd, moved) := fd.move_construct
    { world with objects := (world.objects.insert other moved).insert address fd }

def release (world : World) (address : Nat) : Option Int32 × World :=
  match world.objects[address]? with
  | none => (none, world)
  | some fd =>
    let (descriptor, fd) := fd.release
    (some descriptor, { world with objects := world.objects.insert address fd })

def reset (world : World) (address : Nat) (descriptor : Int32) : World :=
  match world.objects[address]? with
  | none => world
  | some fd =>
    let (fd, process) := fd.reset descriptor world.process
    { objects := world.objects.insert address fd, process }

-- `*this` is at `address`, and the test `this != &other` is on the addresses.
def move_assign (world : World) (address other : Nat) : World :=
  if address ≠ other then
    match world.release other with
    | (none, world) => world
    | (some descriptor, world) => world.reset address descriptor
  else world

def swap (world : World) (address other : Nat) : World :=
  match world.objects[address]?, world.objects[other]? with
  | some fd, some other_fd =>
    let (fd, other_fd) := fd.swap other_fd
    { world with objects := (world.objects.insert address fd).insert other other_fd }
  | _, _ => world

def destroy (world : World) (address : Nat) : World :=
  match world.objects[address]? with
  | none => world
  | some fd =>
    { objects := world.objects.erase address, process := fd.destroy world.process }

inductive Op
  | default_construct (address : Nat)
  | construct (address : Nat) (descriptor : Int32)
  | move_construct (address other : Nat)
  | move_assign (address other : Nat)
  | release (address : Nat)
  | reset (address : Nat) (descriptor : Int32)
  | swap (address other : Nat)
  | destroy (address : Nat)
deriving DecidableEq, Repr

-- The address at which an operation constructs an object.
def Op.constructs : Op → Option Nat
  | .default_construct address => some address
  | .construct address _ => some address
  | .move_construct address _ => some address
  | _ => none

-- The descriptor that an operation returns to its caller, and the world after it.
def step (world : World) : Op → Option Int32 × World
  | .default_construct address => (none, world.construct address {})
  | .construct address descriptor => (none, world.construct address (.of_descriptor descriptor))
  | .move_construct address other => (none, world.move_construct address other)
  | .move_assign address other => (none, world.move_assign address other)
  | .release address => world.release address
  | .reset address descriptor => (none, world.reset address descriptor)
  | .swap address other => (none, world.swap address other)
  | .destroy address => (none, world.destroy address)

def Held (world : World) (descriptor : Int32) : Prop :=
  ∃ entry ∈ world.objects.toList, entry.2.get = descriptor

instance (world : World) (descriptor : Int32) : Decidable (world.Held descriptor) :=
  inferInstanceAs (Decidable (∃ entry ∈ world.objects.toList, entry.2.get = descriptor))

-- Objects are constructed where none is and used while they live, and no object is given
-- a valid descriptor that another one holds.
def Admissible (world : World) : Op → Prop
  | .default_construct address => address ∉ world.objects
  | .construct address descriptor =>
    address ∉ world.objects ∧ (descriptor ≥ 0 → ¬world.Held descriptor)
  | .move_construct address other => address ∉ world.objects ∧ other ∈ world.objects
  | .move_assign address other | .swap address other =>
    address ∈ world.objects ∧ other ∈ world.objects
  | .release address | .destroy address => address ∈ world.objects
  | .reset address descriptor =>
    address ∈ world.objects ∧ (descriptor ≥ 0 → ¬world.Held descriptor ∨
      world.objects[address]?.map UniqueFd.get = some descriptor)

instance (world : World) : (op : Op) → Decidable (world.Admissible op)
  | .default_construct _ => inferInstanceAs (Decidable (¬_))
  | .construct _ _ | .move_construct _ _ | .move_assign _ _ | .swap _ _ | .reset _ _ =>
    inferInstanceAs (Decidable (_ ∧ _))
  | .release address | .destroy address => inferInstanceAs (Decidable (address ∈ world.objects))

-- The descriptor that an operation hands to an object which did not hold it.
def adopted (world : World) : Op → Option Int32
  | .construct _ descriptor => if descriptor ≥ 0 then some descriptor else none
  | .reset address descriptor =>
    if descriptor ≥ 0 ∧ world.objects[address]?.map UniqueFd.get ≠ some descriptor then
      some descriptor
    else none
  | _ => none

def adoptions (descriptor : Int32) (world : World) (op : Op) : Nat :=
  if world.adopted op = some descriptor then 1 else 0

def releases (descriptor : Int32) (world : World) (op : Op) : Nat :=
  if (world.step op).1 = some descriptor then 1 else 0

end World

end AegisFeed
