import Northstar.Lib.Bytes

/-! # A block device with a volatile write cache

A device holds one value for each block number. It is driven by two commands: a write, which may
stay in the cache of the device, and a flush, which makes every earlier write durable. `Cache`
is what is on such a device at one moment: the durable contents, the contents that reads see, and
the writes that no flush has covered yet. -/

namespace Northstar

/-- A command that reaches the device. -/
inductive Cmd (β : Type) where
  | write (block : ℕ) (image : β)
  | flush

/-- The contents of a caching device: durable values, values seen by reads, pending writes. -/
structure Cache (β : Type) where
  durable : ℕ → β
  current : ℕ → β
  pending : List (ℕ × β)

namespace Cache

variable {β : Type}

/-- A device on which every write is durable. -/
def ofDisk (d : ℕ → β) : Cache β := ⟨d, d, []⟩

variable (c : Cache β)

/-- The effect of one command. -/
def step : Cmd β → Cache β
  | .write b x => ⟨c.durable, Function.update c.current b x, (b, x) :: c.pending⟩
  | .flush => ⟨c.current, c.current, []⟩

/-- The effect of a sequence of commands. -/
def run (cmds : List (Cmd β)) : Cache β := cmds.foldl step c

/-! ### One command -/

section Step

variable (b b' : ℕ) (x : β)

@[simp] lemma current_ofDisk (d : ℕ → β) : (ofDisk d).current = d := rfl

/-- A written block is read back, though it is only cached. -/
@[simp] lemma current_step_write :
    (c.step (.write b x)).current = Function.update c.current b x := rfl

/-- A flush does not change what is read. -/
@[simp] lemma current_step_flush : (c.step .flush).current = c.current := rfl

end Step

/-! ### Whole runs -/

variable {c} {b : ℕ}

@[simp] lemma run_nil : c.run [] = c := rfl

@[simp] lemma run_cons (cmd : Cmd β) (cmds : List (Cmd β)) :
    c.run (cmd :: cmds) = (c.step cmd).run cmds := rfl

lemma run_append (cmds cmds' : List (Cmd β)) : c.run (cmds ++ cmds') = (c.run cmds).run cmds' :=
  List.foldl_append

/-- No command of the list writes block `b`. -/
def Avoids (b : ℕ) (cmds : List (Cmd β)) : Prop := ∀ x, Cmd.write b x ∉ cmds

/-- Commands that avoid a block do so without the first one. -/
lemma Avoids.tail {cmd : Cmd β} {cmds : List (Cmd β)} (h : Avoids b (cmd :: cmds)) :
    Avoids b cmds :=
  fun x hx => h x (List.mem_cons_of_mem _ hx)

/-- A block that is not written keeps the value reads see. -/
lemma current_run_of_avoids {cmds : List (Cmd β)} (h : Avoids b cmds) :
    (c.run cmds).current b = c.current b := by
  induction cmds generalizing c with
  | nil => rfl
  | cons cmd cmds ih =>
    rw [run_cons, ih h.tail]
    cases cmd with
    | flush => rfl
    | write b' x =>
      have hne : b ≠ b' := fun he => h x (he ▸ List.mem_cons_self)
      simp [hne]

end Cache

end Northstar
