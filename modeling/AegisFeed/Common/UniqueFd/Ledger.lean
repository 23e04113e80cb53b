import AegisFeed.Common.UniqueFd
import AegisFeed.Library.FiniteMap.Counting

namespace AegisFeed

open Std

namespace UniqueFd

theorem errno_close_preserving_errno (process : Process) (descriptor : Int32) :
    (close_preserving_errno process descriptor).errno = process.errno := by
  unfold close_preserving_errno
  split <;> rfl

theorem closed_close_preserving_errno {process : Process}
    (hclosed : ∀ other ∈ process.closed, other ≥ 0) (descriptor : Int32) :
    ∀ other ∈ (close_preserving_errno process descriptor).closed, other ≥ 0 := by
  unfold close_preserving_errno
  by_cases hsign : descriptor < 0
  · rwa [if_pos hsign]
  · rw [if_neg hsign]
    intro other hmem
    obtain hmem | hmem := List.mem_append.mp hmem
    · exact hclosed other hmem
    · rw [List.mem_singleton.mp hmem]
      exact Int32.not_lt.mp hsign

-- The number of times that the object holds a descriptor.
def holding (fd : UniqueFd) (descriptor : Int32) : Nat :=
  if fd.get = descriptor then 1 else 0

section Valid

variable {valid : Int32} (hvalid : valid ≥ 0)

include hvalid

theorem normalize_eq_iff (descriptor : Int32) :
    normalize descriptor = valid ↔ descriptor = valid := by
  by_cases hsign : descriptor ≥ 0
  · rw [normalize_of_valid hsign]
  · have hne : kInvalidDescriptor ≠ valid := by
      rintro rfl
      exact absurd hvalid (by decide)
    have hne' : descriptor ≠ valid := by
      rintro rfl
      exact hsign hvalid
    rw [normalize_of_invalid hsign]
    exact iff_of_false hne hne'

theorem count_close_preserving_errno (process : Process) (descriptor : Int32) :
    (close_preserving_errno process descriptor).closed.count valid =
      process.closed.count valid + if descriptor = valid then 1 else 0 := by
  unfold close_preserving_errno
  by_cases hsign : descriptor < 0
  · have hne : descriptor ≠ valid := by
      rintro rfl
      exact Int32.not_le.mpr hsign hvalid
    rw [if_pos hsign, if_neg hne, Nat.add_zero]
  · rw [if_neg hsign]
    simp [Process.close, List.count_singleton]

-- A descriptor that `reset` takes away from the object is closed, and one that it gives to
-- the object is adopted.
theorem count_reset (fd : UniqueFd) (descriptor : Int32) (process : Process) :
    (fd.reset descriptor process).2.closed.count valid +
        (fd.reset descriptor process).1.holding valid =
      process.closed.count valid + fd.holding valid +
        if descriptor = valid ∧ fd.get ≠ valid then 1 else 0 := by
  unfold reset holding get
  by_cases hsame : fd.descriptor = normalize descriptor
  · have hnot : ¬(descriptor = valid ∧ fd.descriptor ≠ valid) := by
      rintro ⟨rfl, hother⟩
      exact hother (hsame.trans (normalize_of_valid hvalid))
    rw [if_pos hsame, if_neg hnot, Nat.add_zero]
  · have hiff : descriptor = valid ∧ fd.descriptor ≠ valid ↔ descriptor = valid := by
      rw [and_iff_left_iff_imp]
      rintro rfl hheld
      exact hsame (hheld.trans (normalize_of_valid hvalid).symm)
    rw [if_neg hsame]
    dsimp only [of_descriptor]
    rw [count_close_preserving_errno hvalid]
    simp only [normalize_eq_iff hvalid, hiff]

theorem holding_invalid : ({} : UniqueFd).holding valid = 0 := by
  rw [holding, if_neg]
  rintro rfl
  exact absurd hvalid (by decide)

theorem holding_of_descriptor (descriptor : Int32) :
    (of_descriptor descriptor).holding valid = if descriptor = valid then 1 else 0 :=
  if_congr (normalize_eq_iff hvalid descriptor) rfl rfl

end Valid

end UniqueFd

namespace World

-- The number of live objects that hold a descriptor.
def holders (world : World) (descriptor : Int32) : Nat :=
  FiniteMap.total (fun fd => fd.holding descriptor) world.objects

-- How often a descriptor was closed or is held.
def account (descriptor : Int32) (world : World) : Nat :=
  world.process.closed.count descriptor + world.holders descriptor

section Effects

-- What the methods do to the process.
variable (world : World) (address other : Nat)

theorem process_release : (world.release address).2.process = world.process := by
  unfold release
  split <;> rfl

theorem process_move_construct :
    (world.move_construct address other).process = world.process := by
  unfold move_construct
  split <;> rfl

theorem process_swap : (world.swap address other).process = world.process := by
  unfold swap
  split <;> rfl

theorem process_reset (descriptor : Int32) :
    (world.reset address descriptor).process = world.process ∨ ∃ previous,
      (world.reset address descriptor).process =
        UniqueFd.close_preserving_errno world.process previous := by
  unfold reset UniqueFd.reset
  split
  · exact Or.inl rfl
  · split_ifs
    · exact Or.inl rfl
    · exact Or.inr ⟨_, rfl⟩

end Effects

variable {world : World} {address other : Nat} {fd other_fd : UniqueFd} {valid : Int32}

section Found

variable (hvalid : valid ≥ 0) (hfound : world.objects[address]? = some fd)

include hfound

theorem release_eq : world.release address =
    (some fd.get, { world with objects := world.objects.insert address {} }) := by
  unfold release
  rw [hfound]
  rfl

theorem reset_eq (descriptor : Int32) : world.reset address descriptor =
    { objects := world.objects.insert address (fd.reset descriptor world.process).1
      process := (fd.reset descriptor world.process).2 } := by
  unfold reset
  rw [hfound]

theorem destroy_eq : world.destroy address =
    { objects := world.objects.erase address
      process := UniqueFd.close_preserving_errno world.process fd.get } := by
  unfold destroy
  rw [hfound]
  rfl

theorem move_construct_eq (destination : Nat) : world.move_construct destination address =
    (world.release address).2.construct destination fd := by
  unfold move_construct
  rw [release_eq hfound, hfound]
  rfl

theorem swap_eq (hother : world.objects[other]? = some other_fd) : world.swap address other =
    { world with objects := (world.objects.insert address other_fd).insert other fd } := by
  unfold swap
  rw [hfound, hother]
  rfl

include hvalid

theorem account_release :
    account valid (world.release address).2 + fd.holding valid = account valid world := by
  have hreplace := FiniteMap.total_replace (fun fd => fd.holding valid) world.objects address fd
    {} hfound
  rw [UniqueFd.holding_invalid hvalid] at hreplace
  rw [release_eq hfound]
  unfold account holders
  dsimp only
  omega

theorem account_reset (descriptor : Int32) : account valid (world.reset address descriptor) =
    account valid world + if descriptor = valid ∧ fd.get ≠ valid then 1 else 0 := by
  have hreplace := FiniteMap.total_replace (fun fd => fd.holding valid) world.objects address fd
    (fd.reset descriptor world.process).1 hfound
  have hcount := UniqueFd.count_reset hvalid fd descriptor world.process
  rw [reset_eq hfound]
  unfold account holders
  dsimp only
  omega

theorem account_destroy : account valid (world.destroy address) = account valid world := by
  have herase := FiniteMap.total_erase (fun fd => fd.holding valid) world.objects address fd hfound
  have hcount : (UniqueFd.close_preserving_errno world.process fd.get).closed.count valid =
      world.process.closed.count valid + fd.holding valid :=
    UniqueFd.count_close_preserving_errno hvalid world.process fd.get
  rw [destroy_eq hfound]
  unfold account holders
  dsimp only
  omega

end Found

theorem account_construct (hfresh : world.objects[address]? = none) (fd : UniqueFd) :
    account valid (world.construct address fd) = account valid world + fd.holding valid := by
  have hinsert := FiniteMap.total_insert (fun fd => fd.holding valid) world.objects address fd
    hfresh
  exact (congrArg (world.process.closed.count valid + ·) hinsert).trans (Nat.add_assoc _ _ _).symm

theorem account_swap (hfound : world.objects[address]? = some fd)
    (hother : world.objects[other]? = some other_fd) :
    account valid (world.swap address other) = account valid world := by
  have hexchange := FiniteMap.total_exchange (fun fd => fd.holding valid) hfound hother
  rw [swap_eq hfound hother]
  exact congrArg (world.process.closed.count valid + ·) hexchange

theorem move_assign_self (world : World) (address : Nat) :
    world.move_assign address address = world := by
  unfold move_assign
  rw [if_neg (not_not.mpr rfl)]

section MoveAssign

variable (hne : address ≠ other) (hfound : world.objects[address]? = some fd)
  (hother : world.objects[other]? = some other_fd)

include hne hother

theorem move_assign_eq : world.move_assign address other =
    (world.release other).2.reset address other_fd.get := by
  unfold move_assign
  rw [if_pos hne, release_eq hother]

include hfound

theorem release_getElem? : (world.release other).2.objects[address]? = some fd := by
  rw [release_eq hother]
  dsimp only
  rw [FiniteMap.getElem?_insert, if_neg hne.symm, hfound]

variable (hvalid : valid ≥ 0)

include hvalid

-- The descriptor that moves is not the one that is closed.
theorem account_move_assign (hone : world.holders valid ≤ 1) :
    account valid (world.move_assign address other) = account valid world := by
  have hreset := account_reset hvalid (release_getElem? hne hfound hother) other_fd.get
  have hdistinct : (if other_fd.get = valid ∧ fd.get ≠ valid then 1 else 0) =
      other_fd.holding valid := by
    unfold UniqueFd.holding
    refine if_congr (and_iff_left_of_imp ?_) rfl rfl
    intro hheld hheld'
    exact hne (FiniteMap.key_unique hone hfound hheld' hother hheld)
  rw [hdistinct] at hreset
  rw [move_assign_eq hne hother, hreset]
  exact account_release hvalid hother

end MoveAssign

theorem account_move_construct {destination : Nat} (hvalid : valid ≥ 0)
    (hfresh : world.objects[destination]? = none) (hfound : world.objects[address]? = some fd) :
    account valid (world.move_construct destination address) = account valid world := by
  have hne : address ≠ destination := by
    rintro rfl
    cases hfresh.symm.trans hfound
  have hfresh' : (world.release address).2.objects[destination]? = none := by
    rw [release_eq hfound]
    dsimp only
    rw [FiniteMap.getElem?_insert, if_neg hne, hfresh]
  rw [move_construct_eq hfound, account_construct hfresh']
  exact account_release hvalid hfound

theorem holders_eq_zero_iff (world : World) (descriptor : Int32) :
    world.holders descriptor = 0 ↔ ¬world.Held descriptor := by
  have hpos : 0 < world.holders descriptor ↔ world.Held descriptor := FiniteMap.holding_pos_iff
  rw [← hpos, Nat.not_lt, Nat.le_zero]

-- An operation closes at most one descriptor.
theorem step_process (world : World) (op : Op) :
    (world.step op).2.process = world.process ∨ ∃ descriptor, (world.step op).2.process =
      UniqueFd.close_preserving_errno world.process descriptor := by
  cases op with
  | default_construct address => exact Or.inl rfl
  | construct address descriptor => exact Or.inl rfl
  | move_construct address other => exact Or.inl (process_move_construct world address other)
  | move_assign address other =>
    rw [step]
    unfold move_assign
    have hother := process_release world other
    split_ifs
    · split
      · rename_i heq
        rw [heq] at hother
        exact Or.inl hother
      · rename_i descriptor released heq
        rw [heq] at hother
        rw [← hother]
        exact process_reset released address descriptor
    · exact Or.inl rfl
  | release address => exact Or.inl (process_release world address)
  | reset address descriptor => exact process_reset world address descriptor
  | swap address other => exact Or.inl (process_swap world address other)
  | destroy address =>
    rw [step]
    unfold destroy
    split
    · exact Or.inl rfl
    · exact Or.inr ⟨_, rfl⟩

theorem step_errno (world : World) (op : Op) :
    (world.step op).2.process.errno = world.process.errno := by
  obtain hsame | ⟨descriptor, hclosed⟩ := step_process world op
  · rw [hsame]
  · rw [hclosed]
    exact UniqueFd.errno_close_preserving_errno world.process descriptor

def ClosesValid (world : World) : Prop :=
  ∀ descriptor ∈ world.process.closed, descriptor ≥ 0

theorem ClosesValid.step (hcloses : world.ClosesValid) (op : Op) :
    (world.step op).2.ClosesValid := by
  unfold ClosesValid at *
  obtain hsame | ⟨descriptor, hclosed⟩ := step_process world op
  · rwa [hsame]
  · rw [hclosed]
    exact UniqueFd.closed_close_preserving_errno hcloses descriptor

section Live

-- An object lives from its construction to its destruction, and no other operation makes
-- or ends one.
variable (world : World) (address other live : Nat)

theorem mem_release : live ∈ (world.release address).2.objects ↔ live ∈ world.objects := by
  cases hfound : world.objects[address]? with
  | none => rw [release, hfound]
  | some fd =>
    rw [release_eq hfound]
    exact FiniteMap.mem_insert_of_mem (FiniteMap.mem_of_getElem? hfound) _ live

theorem mem_reset (descriptor : Int32) :
    live ∈ (world.reset address descriptor).objects ↔ live ∈ world.objects := by
  cases hfound : world.objects[address]? with
  | none => rw [reset, hfound]
  | some fd =>
    rw [reset_eq hfound]
    exact FiniteMap.mem_insert_of_mem (FiniteMap.mem_of_getElem? hfound) _ live

theorem mem_move_assign :
    live ∈ (world.move_assign address other).objects ↔ live ∈ world.objects := by
  have hother := mem_release world other live
  unfold move_assign
  split_ifs
  · split
    · rename_i heq
      rw [heq] at hother
      exact hother
    · rename_i descriptor released heq
      rw [heq] at hother
      exact (mem_reset released address live descriptor).trans hother
  · rfl

theorem mem_swap : live ∈ (world.swap address other).objects ↔ live ∈ world.objects := by
  cases hfound : world.objects[address]? with
  | none => rw [swap, hfound]
  | some fd =>
    cases hother : world.objects[other]? with
    | none => rw [swap, hfound, hother]
    | some other_fd =>
      have hmem := FiniteMap.mem_of_getElem? hfound
      have hmem' : other ∈ world.objects.insert address other_fd := by
        rw [FiniteMap.mem_insert_of_mem hmem]
        exact FiniteMap.mem_of_getElem? hother
      rw [swap_eq hfound hother]
      exact (FiniteMap.mem_insert_of_mem hmem' _ live).trans
        (FiniteMap.mem_insert_of_mem hmem _ live)

theorem mem_destroy :
    live ∈ (world.destroy address).objects ↔ address ≠ live ∧ live ∈ world.objects := by
  cases hfound : world.objects[address]? with
  | none =>
    rw [destroy, hfound]
    refine (and_iff_right_of_imp ?_).symm
    rintro hlive rfl
    obtain ⟨fd, hfound'⟩ := (FiniteMap.mem_iff_getElem? _ _).mp hlive
    cases hfound.symm.trans hfound'
  | some fd =>
    rw [destroy_eq hfound]
    exact FiniteMap.mem_erase world.objects address live

theorem mem_move_construct (hother : other ∈ world.objects) :
    live ∈ (world.move_construct address other).objects ↔
      address = live ∨ live ∈ world.objects := by
  obtain ⟨fd, hfound⟩ := (FiniteMap.mem_iff_getElem? _ _).mp hother
  rw [move_construct_eq hfound, ← mem_release world other live]
  exact FiniteMap.mem_insert _ address live fd

variable {world}

theorem Admissible.mem_step {op : Op} (hadmissible : world.Admissible op) :
    live ∈ (world.step op).2.objects ↔
      op.constructs = some live ∨ live ∈ world.objects ∧ op ≠ .destroy live := by
  cases op with
  | default_construct address =>
    rw [step, construct, FiniteMap.mem_insert]
    simp [Op.constructs]
  | construct address descriptor =>
    rw [step, construct, FiniteMap.mem_insert]
    simp [Op.constructs]
  | move_construct address other =>
    rw [step, mem_move_construct world address other live hadmissible.2]
    simp [Op.constructs]
  | move_assign address other =>
    rw [step, mem_move_assign]
    simp [Op.constructs]
  | release address =>
    rw [step, mem_release]
    simp [Op.constructs]
  | reset address descriptor =>
    rw [step, mem_reset]
    simp [Op.constructs]
  | swap address other =>
    rw [step, mem_swap]
    simp [Op.constructs]
  | destroy address =>
    rw [step, mem_destroy]
    simp [Op.constructs, and_comm]

end Live

section Adoptions

variable (hvalid : valid ≥ 0)

include hvalid

theorem adoptions_construct (world : World) (address : Nat) (descriptor : Int32) :
    adoptions valid world (.construct address descriptor) =
      if descriptor = valid then 1 else 0 := by
  refine if_congr ?_ rfl rfl
  rw [adopted, Option.ite_none_right_eq_some, Option.some.injEq, and_iff_right_iff_imp]
  rintro rfl
  exact hvalid

theorem adoptions_reset (hfound : world.objects[address]? = some fd) (descriptor : Int32) :
    adoptions valid world (.reset address descriptor) =
      if descriptor = valid ∧ fd.get ≠ valid then 1 else 0 := by
  refine if_congr ?_ rfl rfl
  rw [adopted, hfound, Option.map_some, Option.ite_none_right_eq_some, Option.some.injEq, ne_eq,
    Option.some.injEq]
  constructor
  · rintro ⟨⟨-, hother⟩, rfl⟩
    exact ⟨rfl, hother⟩
  · rintro ⟨rfl, hother⟩
    exact ⟨⟨hvalid, hother⟩, rfl⟩

-- Only a descriptor that is held nowhere is adopted.
omit hvalid in
theorem Admissible.holders_of_adopted {op : Op} (hadmissible : world.Admissible op)
    (hadopted : world.adopted op = some valid) : world.holders valid = 0 := by
  rw [holders_eq_zero_iff]
  cases op with
  | construct address descriptor =>
    rw [adopted, Option.ite_none_right_eq_some] at hadopted
    obtain ⟨hsign, ⟨⟩⟩ := hadopted
    exact hadmissible.2 hsign
  | reset address descriptor =>
    rw [adopted, Option.ite_none_right_eq_some] at hadopted
    obtain ⟨⟨hsign, hother⟩, ⟨⟩⟩ := hadopted
    exact (hadmissible.2 hsign).resolve_right hother
  | default_construct | move_construct | move_assign | release | swap | destroy => cases hadopted

end Adoptions

section Step

variable {op : Op} (hadmissible : world.Admissible op) (hvalid : valid ≥ 0)
  (hone : world.holders valid ≤ 1)

include hadmissible hvalid hone

-- An adopted descriptor is closed, released to the caller or still held.
theorem Admissible.account_step : account valid (world.step op).2 + releases valid world op =
    account valid world + adoptions valid world op := by
  cases op with
  | default_construct address =>
    have hfresh : world.objects[address]? = none := ExtTreeMap.getElem?_eq_none hadmissible
    rw [step, account_construct hfresh, UniqueFd.holding_invalid hvalid]
    rfl
  | construct address descriptor =>
    have hfresh : world.objects[address]? = none := ExtTreeMap.getElem?_eq_none hadmissible.1
    rw [step, account_construct hfresh, UniqueFd.holding_of_descriptor hvalid,
      adoptions_construct hvalid]
    rfl
  | move_construct address other =>
    obtain ⟨hfresh, hlive⟩ := hadmissible
    obtain ⟨fd, hfound⟩ := (FiniteMap.mem_iff_getElem? _ _).mp hlive
    rw [step, account_move_construct hvalid (ExtTreeMap.getElem?_eq_none hfresh) hfound]
    rfl
  | move_assign address other =>
    obtain ⟨hlive, hlive'⟩ := hadmissible
    obtain ⟨fd, hfound⟩ := (FiniteMap.mem_iff_getElem? _ _).mp hlive
    obtain ⟨other_fd, hother⟩ := (FiniteMap.mem_iff_getElem? _ _).mp hlive'
    by_cases hne : address = other
    · cases hne
      rw [step, move_assign_self]
      rfl
    · rw [step, account_move_assign hne hfound hother hvalid hone]
      rfl
  | release address =>
    obtain ⟨fd, hfound⟩ := (FiniteMap.mem_iff_getElem? _ _).mp hadmissible
    have hreleases : releases valid world (.release address) = fd.holding valid := by
      refine if_congr ?_ rfl rfl
      rw [step, release_eq hfound, Option.some.injEq]
    rw [hreleases]
    exact account_release hvalid hfound
  | reset address descriptor =>
    obtain ⟨fd, hfound⟩ := (FiniteMap.mem_iff_getElem? _ _).mp hadmissible.1
    rw [adoptions_reset hvalid hfound, step, account_reset hvalid hfound]
    rfl
  | swap address other =>
    obtain ⟨hlive, hlive'⟩ := hadmissible
    obtain ⟨fd, hfound⟩ := (FiniteMap.mem_iff_getElem? _ _).mp hlive
    obtain ⟨other_fd, hother⟩ := (FiniteMap.mem_iff_getElem? _ _).mp hlive'
    rw [step, account_swap hfound hother]
    rfl
  | destroy address =>
    obtain ⟨fd, hfound⟩ := (FiniteMap.mem_iff_getElem? _ _).mp hadmissible
    rw [step, account_destroy hvalid hfound]
    rfl

end Step

-- No valid descriptor has two owners.
def Exclusive (world : World) : Prop :=
  ∀ descriptor ≥ 0, world.holders descriptor ≤ 1

theorem Exclusive.unique (hexclusive : world.Exclusive)
    (hfound : world.objects[address]? = some fd) (hother : world.objects[other]? = some other_fd)
    (hvalid : fd.valid) (hsame : fd.get = other_fd.get) : address = other := by
  have hone := hexclusive fd.get (of_decide_eq_true hvalid)
  exact FiniteMap.key_unique hone hfound rfl hother hsame.symm

theorem count_closed_le_step (hvalid : valid ≥ 0) (world : World) (op : Op) :
    world.process.closed.count valid ≤ (world.step op).2.process.closed.count valid := by
  obtain hsame | ⟨descriptor, hclosed⟩ := step_process world op
  · rw [hsame]
  · rw [hclosed, UniqueFd.count_close_preserving_errno hvalid]
    exact Nat.le_add_right _ _

theorem Exclusive.step (hexclusive : world.Exclusive) {op : Op}
    (hadmissible : world.Admissible op) : (world.step op).2.Exclusive := by
  intro descriptor hvalid
  have hone := hexclusive descriptor hvalid
  have haccount := hadmissible.account_step hvalid hone
  have hcount := count_closed_le_step hvalid world op
  have hadopted : world.holders descriptor + adoptions descriptor world op ≤ 1 := by
    unfold adoptions
    split_ifs with hadopted
    · rw [hadmissible.holders_of_adopted hadopted]
    · exact hone
  unfold account at haccount
  omega

-- The world of a process that has closed nothing and has no objects yet.
def initial (errno : Int32) (close_errno : List Int32 → Int32) : World where
  process := { errno, close_errno }

theorem holders_initial (errno : Int32) (close_errno : List Int32 → Int32) (descriptor : Int32) :
    (initial errno close_errno).holders descriptor = 0 :=
  FiniteMap.total_empty _

theorem run_errno (world : World) (ops : List Op) :
    (Machine.run step world ops).process.errno = world.process.errno :=
  Machine.run_invariant step (fun later => later.process.errno = world.process.errno)
    (fun later op hsame => (step_errno later op).trans hsame) world rfl ops

-- The objects that live are those constructed and not destroyed since.
theorem run_live {world : World} {ops : List Op} (hadmits : Machine.Admits step Admissible world ops)
    {address : Nat} (hfresh : address ∉ world.objects) :
    address ∈ (Machine.run step world ops).objects ↔ ∃ earlier op later,
      ops = earlier ++ op :: later ∧ op.constructs = some address ∧
        Op.destroy address ∉ later := by
  have hsince := @Machine.Admits.run_since _ _ _ step Admissible (fun _ => True)
    (fun world => address ∈ world.objects) (fun op => op.constructs = some address)
    (fun op => op = .destroy address) _ _ _ (fun _ _ _ _ => trivial)
    (fun _ _ _ hadmissible => hadmissible.mem_step address) world ops hadmits trivial hfresh
  rw [hsince]
  simp only [List.forall_mem_ne']

-- Every valid descriptor that objects adopted was closed, was released to the caller or is
-- held by one object; each of these counts for one adoption. The objects are those that the
-- operations constructed and did not destroy since, and `errno` is what it was.
theorem descriptor_ledger (errno : Int32) (close_errno : List Int32 → Int32) (ops : List Op)
    (hadmits : Machine.Admits step Admissible (initial errno close_errno) ops) :
    let world := Machine.run step (initial errno close_errno) ops
    (∀ (address other : Nat) (fd other_fd : UniqueFd), world.objects[address]? = some fd →
      world.objects[other]? = some other_fd → fd.valid → fd.get = other_fd.get →
        address = other) ∧
    (∀ descriptor ≥ 0,
      Machine.accumulated step (adoptions descriptor) (initial errno close_errno) ops =
        world.process.closed.count descriptor +
          Machine.accumulated step (releases descriptor) (initial errno close_errno) ops +
          if world.Held descriptor then 1 else 0) ∧
    (∀ descriptor ∈ world.process.closed, descriptor ≥ 0) ∧
    (∀ address, address ∈ world.objects ↔ ∃ earlier op later, ops = earlier ++ op :: later ∧
      op.constructs = some address ∧ Op.destroy address ∉ later) ∧
    world.process.errno = errno := by
  intro world
  have hinitial : (initial errno close_errno).Exclusive := by
    intro descriptor _
    rw [holders_initial]
    exact Nat.zero_le 1
  have hstep : ∀ world op, Exclusive world → world.Admissible op →
      Exclusive (world.step op).2 := fun _ _ hexclusive => hexclusive.step
  have hexclusive : world.Exclusive := hadmits.run_invariant hstep hinitial
  refine ⟨fun address other fd other_fd => hexclusive.unique, ?_, ?_, ?_,
    run_errno (initial errno close_errno) ops⟩
  · intro descriptor hvalid
    have hbalance : account descriptor world + _ = _ :=
      hadmits.run_balance hstep (account descriptor) (adoptions descriptor)
        (releases descriptor) (fun world op hexclusive hadmissible =>
          hadmissible.account_step hvalid (hexclusive descriptor hvalid)) hinitial
    have hstart : account descriptor (initial errno close_errno) = 0 := by
      rw [account, holders_initial]
      rfl
    have hholders : world.holders descriptor = if world.Held descriptor then 1 else 0 := by
      have hone := hexclusive descriptor hvalid
      have hzero := holders_eq_zero_iff world descriptor
      split_ifs with hheld
      · have hne : world.holders descriptor ≠ 0 := fun h => hzero.mp h hheld
        omega
      · exact hzero.mpr hheld
    rw [hstart, account, hholders] at hbalance
    omega
  · exact Machine.run_invariant step ClosesValid (fun _ op hcloses => hcloses.step op)
      (initial errno close_errno) nofun ops
  · intro address
    exact run_live hadmits ExtTreeMap.not_mem_empty

-- An object is moved to another one that holds a descriptor, keeps its own when it is reset
-- to it and releases it.
def sampleOps : List Op :=
  [.construct 1 5, .construct 2 7, .move_assign 1 2, .reset 1 7, .swap 1 1, .release 1,
    .destroy 2]

theorem sampleOps_ledger :
    Machine.Admits step Admissible (initial 4 fun _ => 9) sampleOps ∧
      ∀ descriptor ≥ 0,
        Machine.accumulated step (adoptions descriptor) (initial 4 fun _ => 9) sampleOps =
          (Machine.run step (initial 4 fun _ => 9) sampleOps).process.closed.count descriptor +
            Machine.accumulated step (releases descriptor) (initial 4 fun _ => 9) sampleOps +
            if (Machine.run step (initial 4 fun _ => 9) sampleOps).Held descriptor then 1
            else 0 := by
  have hadmits : Machine.Admits step Admissible (initial 4 fun _ => 9) sampleOps := by decide
  exact ⟨hadmits, (descriptor_ledger 4 (fun _ => 9) sampleOps hadmits).2.1⟩

end World

end AegisFeed
