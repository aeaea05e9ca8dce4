import FailurePlayground.IoQuota
import FailurePlayground.Lib.SlotTable

namespace FailurePlayground.ChaosIo

/-!
# The table against the files that are open

The table learns of a descriptor in `chaos_io_open` and forgets it in
`chaos_io_close`; a plain `close` on a chaos descriptor passes it by.  The
abstract model is the list of chaos files that are really open, each with what
its own calls have set and written.
-/

/-- `chaos_io_set_fsync_delay`. -/
def chaosIoSetFsyncDelay (slots : Slots) (fd : Int) (ns : UInt64) : Slots :=
  updateSlot slots fd fun slot => { slot with fsyncDelayNs := ns }

/-- The delay that `chaos_io_fsync` sleeps for; without a slot there is none. -/
def chaosIoFsyncDelay (slots : Slots) (fd : Int) : UInt64 :=
  match findLocked slots fd with
  | some index => (slots index).fsyncDelayNs
  | none => 0

/-- What `chaos_io_open` returns. -/
inductive OpenReturn where
  | opened (fd : Int)
  | failed
  | emfile
  deriving Repr, DecidableEq

/-- `chaos_io_open`, given what `mkstemp` returned. -/
def chaosIoOpen (slots : Slots) (fd : Int) : Slots × OpenReturn :=
  if fd < 0 then
    (slots, .failed)
  else
    match allocLocked slots fd with
    | none => (slots, .emfile)
    | some slots => (slots, .opened fd)

/-- `chaos_io_close`, before its `close`. -/
def chaosIoClose (slots : Slots) (fd : Int) : Slots :=
  updateSlot slots fd fun slot => { slot with inUse := false }

/--
A whole call of `chaos_io_write` with no other call between its critical
sections; `kernel` is what `write` answers to the bytes requested.
-/
def chaosIoWrite
    (slots : Slots)
    (fd : Int)
    (n : UInt64)
    (kernel : UInt64 → Option UInt64) : Slots × WriteReturn :=
  match chaosIoWriteCheck slots fd n with
  | none => (slots, .enospc)
  | some want =>
      match kernel want with
      | none => (slots, .failed)
      | some w =>
          if w > 0 then
            (chaosIoWriteAccount slots fd w, .bytes w)
          else
            (slots, .bytes w)

/-- An open chaos file: what its own setters and writes have made of it. -/
structure ChaosFile where
  fd : Int
  quota : UInt64
  partialMax : UInt64
  fsyncDelayNs : UInt64
  written : Nat
  deriving Repr, DecidableEq

namespace ChaosFile

/-- A file just opened: every knob is off. -/
def fresh (fd : Int) : ChaosFile where
  fd := fd
  quota := 0
  partialMax := 0
  fsyncDelayNs := 0
  written := 0

/-- The slot such a file has; the count is a `size_t`. -/
def slot (file : ChaosFile) : IoSlot where
  fd := file.fd
  inUse := true
  quota := file.quota
  bytesWritten := UInt64.ofNat file.written
  partialMax := file.partialMax
  fsyncDelayNs := file.fsyncDelayNs

end ChaosFile

/-- Change the file open under a descriptor, when there is one. -/
def updateFile
    (files : List ChaosFile)
    (fd : Int)
    (change : ChaosFile → ChaosFile) : List ChaosFile :=
  files.map fun file => if file.fd = fd then change file else file

/-- The files left open after a descriptor is closed. -/
def closeFile (files : List ChaosFile) (fd : Int) : List ChaosFile :=
  files.filter fun file => file.fd ≠ fd

/-- The table, and the chaos files that are really open. -/
structure IoState where
  slots : Slots
  files : List ChaosFile

/-- One call, with what the kernel answers to it. -/
inductive IoOp where
  | openFile (fd : Int)
  | setQuota (fd : Int) (bytes : UInt64)
  | setPartial (fd : Int) (maxChunk : UInt64)
  | setFsyncDelay (fd : Int) (ns : UInt64)
  | write (fd : Int) (n : UInt64) (room : Option UInt64)
  | close (fd : Int)
  | plainClose (fd : Int)
  deriving Repr, DecidableEq

namespace IoState

/--
Run one call; `mkstemp` returns a descriptor that is not open, and `write`
fails or takes as much as there is room for.
-/
def step? (state : IoState) : IoOp → Option IoState
  | .openFile fd =>
      if ∃ file ∈ state.files, file.fd = fd then
        none
      else
        match chaosIoOpen state.slots fd with
        | (slots, .opened fd) =>
            some {
              slots := slots
              files := state.files ++ [.fresh fd]
            }
        | (slots, .failed) | (slots, .emfile) =>
            some { state with slots := slots }
  | .setQuota fd bytes =>
      some {
        slots := chaosIoSetQuota state.slots fd bytes
        files :=
          updateFile state.files fd fun file =>
            { file with quota := bytes }
      }
  | .setPartial fd maxChunk =>
      some {
        slots := chaosIoSetPartial state.slots fd maxChunk
        files :=
          updateFile state.files fd fun file =>
            { file with partialMax := maxChunk }
      }
  | .setFsyncDelay fd ns =>
      some {
        slots := chaosIoSetFsyncDelay state.slots fd ns
        files :=
          updateFile state.files fd fun file =>
            { file with fsyncDelayNs := ns }
      }
  | .write fd n room =>
      match chaosIoWrite state.slots fd n fun want => room.map (min want) with
      | (slots, .bytes w) =>
          some {
            slots := slots
            files :=
              updateFile state.files fd fun file =>
                { file with written := file.written + w.toNat }
          }
      | (slots, .enospc) | (slots, .failed) =>
          some { state with slots := slots }
  | .close fd =>
      some {
        slots := chaosIoClose state.slots fd
        files := closeFile state.files fd
      }
  | .plainClose fd =>
      some { state with files := closeFile state.files fd }

/-- Run a finite sequence of calls. -/
abbrev run? : IoState → List IoOp → Option IoState :=
  Transition.run? step?

/-- No chaos file is open, and the table is zero. -/
def start : IoState where
  slots := fun _ => zeroSlot
  files := []

/-- The table is the map from the open chaos files to their state. -/
structure IsMap (state : IoState) : Prop where
  /-- Every open file's descriptor finds what its own calls have made of it. -/
  knobs :
    ∀ file ∈ state.files,
      (findLocked state.slots file.fd).map state.slots = some file.slot
  /-- `EMFILE` for lack of a slot means that 64 chaos files are open. -/
  emfile :
    ∀ fd, (chaosIoOpen state.slots fd).2 = .emfile →
      ioSlotsMax ≤ state.files.length

/-- No open chaos file is closed by a plain `close`. -/
def Polite (state : IoState) : IoOp → Prop
  | .plainClose fd => ∀ file ∈ state.files, file.fd ≠ fd
  | _ => True

instance (state : IoState) : (op : IoOp) → Decidable (state.Polite op)
  | .plainClose fd =>
      inferInstanceAs (Decidable (∀ file ∈ state.files, file.fd ≠ fd))
  | .openFile _ | .setQuota _ _ | .setPartial _ _ | .setFsyncDelay _ _
  | .write _ _ _ | .close _ =>
      inferInstanceAs (Decidable True)

end IoState

section Table

variable
  {slots : Slots}
  {files : List ChaosFile}
  {fd : Int}

/-- The descriptor a slot is in use for. -/
def slotKey (slot : IoSlot) : Option Int :=
  if slot.inUse then some slot.fd else none

@[simp] theorem slotKey_slot (file : ChaosFile) :
    slotKey file.slot = some file.fd := rfl

/-- `find_locked` is the search of the table by descriptor. -/
theorem findLocked_eq_find? (slots : Slots) (fd : Int) :
    findLocked slots fd = SlotTable.find? slotKey slots fd := by
  unfold findLocked SlotTable.find?
  congr 1
  funext index
  cases inUse : (slots index).inUse with
  | false =>
      simp [slotKey, inUse]
  | true =>
      by_cases same : (slots index).fd = fd
      · simp [slotKey, inUse, same]
      · simp [slotKey, inUse, same]

/-- `alloc_locked` takes a free slot, and fails when there is none. -/
theorem allocLocked_cases (slots : Slots) (fd : Int) :
    (allocLocked slots fd = none ∧
        SlotTable.used slotKey slots = ioSlotsMax) ∨
      ∃ index,
        slotKey (slots index) = none ∧
          allocLocked slots fd =
            some (Function.update slots index
              (ChaosFile.fresh fd).slot) := by
  cases found :
      (List.finRange ioSlotsMax).find? fun index =>
        !(slots index).inUse with
  | none =>
      refine Or.inl ⟨by simp only [allocLocked, found, Option.map_none],
        SlotTable.used_eq_iff.mpr fun index => ?_⟩
      have busy :=
        List.find?_eq_none.mp found index (List.mem_finRange index)
      simp only [Bool.not_eq_true', Bool.not_eq_false] at busy
      simp [slotKey, busy]
  | some index =>
      have free := List.find?_some found
      simp only [Bool.not_eq_true'] at free
      refine Or.inr ⟨index, by simp [slotKey, free], ?_⟩
      simp only [allocLocked, found, Option.map_some]
      rfl

/-- The table tracks the open files, one slot for each. -/
structure Tracks (slots : Slots) (files : List ChaosFile) : Prop where
  oneEach : SlotTable.OneEach slotKey slots
  held : ∀ file ∈ files, ∃ index, slots index = file.slot
  owned :
    ∀ index fd, slotKey (slots index) = some fd →
      ∃ file ∈ files, file.fd = fd
  distinct : (files.map ChaosFile.fd).Nodup
  counted : SlotTable.used slotKey slots = files.length

/-- An open file's slot is the one its descriptor finds. -/
theorem Tracks.found
    (tracks : Tracks slots files)
    {file : ChaosFile}
    (member : file ∈ files) :
    ∃ index,
      findLocked slots file.fd = some index ∧
        slots index = file.slot := by
  obtain ⟨index, here⟩ := tracks.held file member
  refine ⟨index, ?_, here⟩
  rw [findLocked_eq_find?]
  exact tracks.oneEach.find?_eq (by rw [here, slotKey_slot])

/-- The slot a descriptor finds is that of an open file. -/
theorem Tracks.owner
    (tracks : Tracks slots files)
    {index : Fin ioSlotsMax}
    (found : findLocked slots fd = some index) :
    ∃ file ∈ files, file.fd = fd ∧ slots index = file.slot := by
  have carries : slotKey (slots index) = some fd := by
    rw [findLocked_eq_find?] at found
    exact SlotTable.key?_of_find? found
  obtain ⟨file, member, same⟩ := tracks.owned index fd carries
  obtain ⟨at', foundFile, here⟩ := tracks.found member
  rw [same, found, Option.some.injEq] at foundFile
  subst foundFile
  exact ⟨file, member, same, here⟩

/-- A descriptor that finds no slot has no open file. -/
theorem Tracks.not_open
    (tracks : Tracks slots files)
    (missing : findLocked slots fd = none) :
    ∀ file ∈ files, file.fd ≠ fd := by
  rintro file member rfl
  obtain ⟨index, found, _⟩ := tracks.found member
  rw [missing] at found
  exact absurd found (by simp)

/-- Two open files with one descriptor are one file. -/
theorem Tracks.eq_of_fd
    (tracks : Tracks slots files)
    {first second : ChaosFile}
    (firstMember : first ∈ files)
    (secondMember : second ∈ files)
    (same : first.fd = second.fd) :
    first = second :=
  List.inj_on_of_nodup_map tracks.distinct firstMember secondMember same

/-- Changing a slot and its file alike keeps them in step. -/
theorem Tracks.update
    (tracks : Tracks slots files)
    {change : IoSlot → IoSlot}
    {changeFile : ChaosFile → ChaosFile}
    (alike : ∀ file, change file.slot = (changeFile file).slot)
    (sameFd : ∀ file, (changeFile file).fd = file.fd) :
    Tracks (updateSlot slots fd change)
      (updateFile files fd changeFile) := by
  have sameFds :
      (updateFile files fd changeFile).map ChaosFile.fd =
        files.map ChaosFile.fd := by
    rw [updateFile, List.map_map]
    refine List.map_congr_left fun file _ => ?_
    simp only [Function.comp]
    split
    · exact sameFd file
    · exact rfl
  have lengths :
      (updateFile files fd changeFile).length = files.length :=
    List.length_map _
  cases found : findLocked slots fd with
  | none =>
      have untouched : updateFile files fd changeFile = files := by
        refine (List.map_congr_left fun file member => ?_).trans
          (List.map_id files)
        rw [if_neg (tracks.not_open found file member), id]
      simp only [updateSlot, found, untouched]
      exact tracks
  | some index =>
      obtain ⟨file, member, sameDescriptor, here⟩ := tracks.owner found
      have carries : slotKey (slots index) = some fd := by
        rw [here, slotKey_slot, sameDescriptor]
      have changed : change (slots index) = (changeFile file).slot := by
        rw [here, alike]
      have keptKey :
          slotKey (changeFile file).slot = slotKey (slots index) := by
        rw [here, slotKey_slot, slotKey_slot, sameFd]
      simp only [updateSlot, found, changed]
      exact {
        oneEach := tracks.oneEach.rewrite fun key carriesKey =>
          keptKey ▸ carriesKey
        held := by
          intro changedFile changedMember
          obtain ⟨old, oldMember, rfl⟩ := List.mem_map.mp changedMember
          by_cases same : old.fd = fd
          · have identical : old = file :=
              tracks.eq_of_fd oldMember member
                (same.trans sameDescriptor.symm)
            refine ⟨index, ?_⟩
            rw [Function.update_self, if_pos same, identical]
          · obtain ⟨other, otherHere⟩ := tracks.held old oldMember
            have elsewhere : other ≠ index := by
              rintro rfl
              rw [otherHere, slotKey_slot, Option.some.injEq] at carries
              exact same carries
            refine ⟨other, ?_⟩
            rw [Function.update_of_ne elsewhere, if_neg same, otherHere]
        owned := by
          intro other key carriesKey
          have before : slotKey (slots other) = some key := by
            by_cases here : other = index
            · subst here
              rw [Function.update_self, keptKey] at carriesKey
              exact carriesKey
            · rw [Function.update_of_ne here] at carriesKey
              exact carriesKey
          obtain ⟨owner, ownerMember, rfl⟩ :=
            tracks.owned other key before
          have listed : owner.fd ∈ files.map ChaosFile.fd :=
            List.mem_map_of_mem ownerMember
          rw [← sameFds] at listed
          exact List.mem_map.mp listed
        distinct := by
          rw [sameFds]
          exact tracks.distinct
        counted := by
          rw [lengths, ← tracks.counted]
          exact SlotTable.used_update_same (by rw [keptKey])
      }

/-- Closing an open file leaves one file less. -/
theorem Tracks.length_closeFile
    (tracks : Tracks slots files)
    {file : ChaosFile}
    (member : file ∈ files)
    (same : file.fd = fd) :
    (closeFile files fd).length + 1 = files.length := by
  have once : (files.map ChaosFile.fd).count fd = 1 :=
    List.count_eq_one_of_mem tracks.distinct
      (same ▸ List.mem_map_of_mem member)
  have split :
      files.length =
        (files.countP fun file => file.fd == fd) +
          files.countP fun file => ¬ (file.fd == fd) = true :=
    List.length_eq_countP_add_countP _
  rw [List.count, List.countP_map] at once
  have kept :
      (closeFile files fd).length =
        files.countP fun file => ¬ (file.fd == fd) = true := by
    rw [closeFile, ← List.countP_eq_length_filter]
    congr 1
    funext file
    simp
  have closed :
      files.countP (fun file : ChaosFile => file.fd == fd) = 1 := once
  rw [kept, split, closed, Nat.add_comm]

/-- A descriptor the kernel hands out, and a free slot for it. -/
theorem Tracks.open
    (tracks : Tracks slots files)
    (unused : ∀ file ∈ files, file.fd ≠ fd)
    {index : Fin ioSlotsMax}
    (free : slotKey (slots index) = none) :
    Tracks (Function.update slots index (ChaosFile.fresh fd).slot)
      (files ++ [ChaosFile.fresh fd]) where
  oneEach := by
    refine tracks.oneEach.update ?_
    intro other key _ carries otherCarries
    rw [slotKey_slot, Option.some.injEq] at carries
    obtain ⟨file, member, same⟩ := tracks.owned other key otherCarries
    exact unused file member (same.trans carries.symm)
  held := by
    intro file member
    rcases List.mem_append.mp member with old | new
    · obtain ⟨other, here⟩ := tracks.held file old
      have elsewhere : other ≠ index := by
        rintro rfl
        rw [here, slotKey_slot] at free
        exact absurd free (by simp)
      exact ⟨other, by rw [Function.update_of_ne elsewhere, here]⟩
    · obtain rfl := List.mem_singleton.mp new
      exact ⟨index, Function.update_self index _ slots⟩
  owned := by
    intro other key carries
    by_cases here : other = index
    · subst here
      rw [Function.update_self, slotKey_slot,
        Option.some.injEq] at carries
      exact ⟨ChaosFile.fresh fd,
        List.mem_append_right _ List.mem_cons_self, carries⟩
    · rw [Function.update_of_ne here] at carries
      obtain ⟨file, member, same⟩ := tracks.owned other key carries
      exact ⟨file, List.mem_append_left _ member, same⟩
  distinct := by
    rw [List.map_append, List.nodup_append]
    refine ⟨tracks.distinct, List.nodup_singleton _, ?_⟩
    intro key old other new same
    obtain ⟨file, member, rfl⟩ := List.mem_map.mp old
    obtain rfl := List.mem_singleton.mp new
    exact unused file member same
  counted := by
    rw [SlotTable.used_update_taken free rfl, tracks.counted,
      List.length_append, List.length_singleton]

/-- `chaos_io_close` forgets the descriptor it closes. -/
theorem Tracks.close
    (tracks : Tracks slots files)
    (fd : Int) :
    Tracks (chaosIoClose slots fd) (closeFile files fd) := by
  cases found : findLocked slots fd with
  | none =>
      have untouched : closeFile files fd = files := by
        refine List.filter_eq_self.mpr fun file member => ?_
        exact decide_eq_true (tracks.not_open found file member)
      simp only [chaosIoClose, updateSlot, found, untouched]
      exact tracks
  | some index =>
      obtain ⟨file, member, same, owned⟩ := tracks.owner found
      have carries : slotKey (slots index) = some fd := by
        rw [owned, slotKey_slot, same]
      simp only [chaosIoClose, updateSlot, found]
      exact {
        oneEach := tracks.oneEach.rewrite fun key carriesKey => by
          simp [slotKey] at carriesKey
        held := by
          intro other otherMember
          obtain ⟨old, different⟩ := List.mem_filter.mp otherMember
          obtain ⟨place, here⟩ := tracks.held other old
          have elsewhere : place ≠ index := by
            rintro rfl
            rw [here, slotKey_slot, Option.some.injEq] at carries
            exact of_decide_eq_true different carries
          exact ⟨place, by rw [Function.update_of_ne elsewhere, here]⟩
        owned := by
          intro place key carriesKey
          have elsewhere : place ≠ index := by
            rintro rfl
            rw [Function.update_self] at carriesKey
            simp [slotKey] at carriesKey
          rw [Function.update_of_ne elsewhere] at carriesKey
          obtain ⟨owner, ownerMember, owns⟩ :=
            tracks.owned place key carriesKey
          refine ⟨owner, List.mem_filter.mpr ⟨ownerMember, ?_⟩, owns⟩
          refine decide_eq_true fun closed => elsewhere ?_
          rw [← owns, closed] at carriesKey
          exact tracks.oneEach place index fd carriesKey carries
        distinct :=
          tracks.distinct.sublist (List.filter_sublist.map _)
        counted := by
          have length := tracks.length_closeFile member same
          have freed :
              SlotTable.used slotKey
                  (Function.update slots index
                    { slots index with inUse := false }) + 1 =
                SlotTable.used slotKey slots :=
            SlotTable.used_update_freed (by rw [carries]; rfl)
              (by simp [slotKey])
          exact Nat.add_right_cancel
            (freed.trans (tracks.counted.trans length.symm))
      }

/-- A table that tracks the open files is a map. -/
theorem Tracks.isMap
    (tracks : Tracks slots files) :
    IoState.IsMap ⟨slots, files⟩ where
  knobs := by
    intro file member
    obtain ⟨index, found, here⟩ := tracks.found member
    simp only [found, Option.map_some, here]
  emfile := by
    intro fd refused
    have full : allocLocked slots fd = none := by
      simp only [chaosIoOpen] at refused
      split at refused
      · exact absurd refused (by simp)
      · split at refused
        · assumption
        · exact absurd refused (by simp)
    rcases allocLocked_cases slots fd with ⟨_, used⟩ | ⟨_, _, taken⟩
    · rw [tracks.counted] at used
      exact Nat.le_of_eq used.symm
    · rw [full] at taken
      exact absurd taken (by simp)

end Table

namespace IoState

variable
  {state next final : IoState}
  {op : IoOp}
  {fd : Int}

/-- What `chaos_io_open` answers, and the table it leaves. -/
theorem chaosIoOpen_cases (slots : Slots) (fd : Int) :
    chaosIoOpen slots fd = (slots, .failed) ∨
      (chaosIoOpen slots fd = (slots, .emfile) ∧
        SlotTable.used slotKey slots = ioSlotsMax) ∨
      ∃ index,
        slotKey (slots index) = none ∧
          chaosIoOpen slots fd =
            (Function.update slots index (ChaosFile.fresh fd).slot,
              .opened fd) := by
  by_cases negative : fd < 0
  · exact Or.inl (by simp only [chaosIoOpen, negative, ↓reduceIte])
  · rcases allocLocked_cases slots fd with
      ⟨full, used⟩ | ⟨index, free, taken⟩
    · exact Or.inr (Or.inl
        ⟨by simp only [chaosIoOpen, negative, ↓reduceIte, full], used⟩)
    · exact Or.inr (Or.inr ⟨index, free,
        by simp only [chaosIoOpen, negative, ↓reduceIte, taken]⟩)

/-- What `chaos_io_write` answers, and the table it leaves. -/
theorem chaosIoWrite_cases
    (slots : Slots)
    (fd : Int)
    (n : UInt64)
    (kernel : UInt64 → Option UInt64) :
    chaosIoWrite slots fd n kernel = (slots, .enospc) ∨
      chaosIoWrite slots fd n kernel = (slots, .failed) ∨
      chaosIoWrite slots fd n kernel = (slots, .bytes 0) ∨
      ∃ w,
        chaosIoWrite slots fd n kernel =
          (chaosIoWriteAccount slots fd w, .bytes w) := by
  cases checked : chaosIoWriteCheck slots fd n with
  | none =>
      exact Or.inl (by simp only [chaosIoWrite, checked])
  | some want =>
      cases answer : kernel want with
      | none =>
          exact Or.inr (Or.inl
            (by simp only [chaosIoWrite, checked, answer]))
      | some w =>
          by_cases some : w > 0
          · refine Or.inr (Or.inr (Or.inr ⟨w, ?_⟩))
            simp only [chaosIoWrite, checked, answer, some, ↓reduceIte]
          · have zero : w = 0 :=
              UInt64.le_antisymm (UInt64.not_lt.mp some) UInt64.zero_le
            subst zero
            refine Or.inr (Or.inr (Or.inl ?_))
            simp only [chaosIoWrite, checked, answer, some, ↓reduceIte]

/-- Nothing changes when nothing is added to a file's count. -/
theorem updateFile_zero (files : List ChaosFile) (fd : Int) :
    updateFile files fd (fun file =>
      { file with written := file.written + (0 : UInt64).toNat }) =
        files := by
  refine (List.map_congr_left fun file _ => ?_).trans (List.map_id files)
  split
  · exact rfl
  · exact rfl

/-- Every call but a plain `close` of an open file keeps them in step. -/
theorem tracks_step
    (tracks : Tracks state.slots state.files)
    (polite : state.Polite op)
    (stepped : state.step? op = some next) :
    Tracks next.slots next.files := by
  cases op with
  | openFile fd =>
      simp only [step?, Option.ite_none_left_eq_some] at stepped
      obtain ⟨unused, stepped⟩ := stepped
      have apart : ∀ file ∈ state.files, file.fd ≠ fd :=
        fun file member same => unused ⟨file, member, same⟩
      rcases chaosIoOpen_cases state.slots fd with
        failed | ⟨refused, _⟩ | ⟨index, free, opened⟩
      · simp only [failed, Option.some.injEq] at stepped
        exact stepped ▸ tracks
      · simp only [refused, Option.some.injEq] at stepped
        exact stepped ▸ tracks
      · simp only [opened, Option.some.injEq] at stepped
        exact stepped ▸ tracks.open apart free
  | setQuota fd bytes =>
      simp only [step?, Option.some.injEq] at stepped
      subst stepped
      simp only [chaosIoSetQuota]
      refine tracks.update ?_ ?_
      · exact fun _ => rfl
      · exact fun _ => rfl
  | setPartial fd maxChunk =>
      simp only [step?, Option.some.injEq] at stepped
      subst stepped
      simp only [chaosIoSetPartial]
      refine tracks.update ?_ ?_
      · exact fun _ => rfl
      · exact fun _ => rfl
  | setFsyncDelay fd ns =>
      simp only [step?, Option.some.injEq] at stepped
      subst stepped
      simp only [chaosIoSetFsyncDelay]
      refine tracks.update ?_ ?_
      · exact fun _ => rfl
      · exact fun _ => rfl
  | write fd n room =>
      simp only [step?] at stepped
      rcases chaosIoWrite_cases state.slots fd n
          (fun want => room.map (min want)) with
        full | failed | nothing | ⟨w, wrote⟩
      · simp only [full, Option.some.injEq] at stepped
        exact stepped ▸ tracks
      · simp only [failed, Option.some.injEq] at stepped
        exact stepped ▸ tracks
      · simp only [nothing, Option.some.injEq,
          updateFile_zero] at stepped
        exact stepped ▸ tracks
      · simp only [wrote, Option.some.injEq] at stepped
        subst stepped
        simp only [chaosIoWriteAccount]
        refine tracks.update ?_ ?_
        · intro file
          simp only [ChaosFile.slot, UInt64.ofNat_add,
            UInt64.ofNat_toNat]
        · exact fun _ => rfl
  | close fd =>
      simp only [step?, Option.some.injEq] at stepped
      exact stepped ▸ tracks.close fd
  | plainClose fd =>
      simp only [step?, Option.some.injEq] at stepped
      have untouched : closeFile state.files fd = state.files :=
        List.filter_eq_self.mpr fun file member =>
          decide_eq_true (polite file member)
      rw [untouched] at stepped
      exact stepped ▸ tracks

/-- The zero table tracks no files. -/
theorem tracks_start : Tracks start.slots start.files where
  oneEach := by
    intro first second key carries _
    exact absurd carries (by simp [start, slotKey, zeroSlot])
  held _ member := (List.not_mem_nil member).elim
  owned := by
    intro index fd carries
    exact absurd carries (by simp [start, slotKey, zeroSlot])
  distinct := List.nodup_nil
  counted := by
    simp [SlotTable.used, start, slotKey, zeroSlot]

/-- The table has more slots in use than there are open files. -/
def Leaks (state : IoState) : Prop :=
  state.files.length < SlotTable.used slotKey state.slots

/-- There is always a descriptor that is not open. -/
theorem exists_unused (files : List ChaosFile) :
    ∃ fd : Int, ¬ fd < 0 ∧ ¬ ∃ file ∈ files, file.fd = fd := by
  obtain ⟨number, unused⟩ :=
    Infinite.exists_notMem_finset
      (files.map fun file => file.fd.toNat).toFinset
  refine ⟨number, Int.not_lt.mpr (Int.natCast_nonneg number), ?_⟩
  rintro ⟨file, member, same⟩
  refine unused (List.mem_toFinset.mpr (List.mem_map.mpr
    ⟨file, member, ?_⟩))
  rw [same, Int.toNat_natCast]

/-- A leaking table that is full is no map. -/
theorem Leaks.not_isMap
    (leaks : state.Leaks)
    (full : SlotTable.used slotKey state.slots = ioSlotsMax) :
    ¬ state.IsMap := by
  intro isMap
  have refused : (chaosIoOpen state.slots 0).2 = .emfile := by
    rcases allocLocked_cases state.slots 0 with
      ⟨none, _⟩ | ⟨index, free, _⟩
    · simp [chaosIoOpen, none]
    · have busy := SlotTable.used_eq_iff.mp full index
      rw [free] at busy
      exact absurd busy (by simp)
  have many := isMap.emfile 0 refused
  unfold Leaks at leaks
  omega

/-- Opening one more file takes one more slot of a leaking table. -/
theorem Leaks.progress
    (leaks : state.Leaks)
    (isMap : state.IsMap) :
    ∃ op next,
      state.step? op = some next ∧ next.Leaks ∧
        ioSlotsMax - SlotTable.used slotKey next.slots <
          ioSlotsMax - SlotTable.used slotKey state.slots := by
  obtain ⟨fd, natural, unused⟩ := exists_unused state.files
  rcases chaosIoOpen_cases state.slots fd with
    failed | ⟨_, full⟩ | ⟨index, free, opened⟩
  · simp only [chaosIoOpen, natural, ↓reduceIte] at failed
    split at failed
    · exact absurd failed (by simp)
    · exact absurd failed (by simp)
  · exact absurd isMap (leaks.not_isMap full)
  · have taken :
        SlotTable.used slotKey
            (Function.update state.slots index
              (ChaosFile.fresh fd).slot) =
          SlotTable.used slotKey state.slots + 1 :=
      SlotTable.used_update_taken free rfl
    have bound :
        SlotTable.used slotKey
            (Function.update state.slots index
              (ChaosFile.fresh fd).slot) ≤ ioSlotsMax :=
      SlotTable.used_le
    refine ⟨.openFile fd, _,
      by simp only [step?, unused, ↓reduceIte, opened]; rfl, ?_, ?_⟩
    · unfold Leaks at leaks ⊢
      simp only [List.length_append, List.length_singleton, taken]
      omega
    · simp only [taken] at bound ⊢
      omega

/-- Opening files fills a leaking table before 64 of them are open. -/
theorem Leaks.exists_run
    (leaks : state.Leaks) :
    ∃ later final,
      state.run? later = some final ∧ ¬ final.IsMap := by
  have progress :
      ∀ state : IoState,
        state.Leaks →
        ¬ ¬ state.IsMap →
        ∃ op next,
          state.step? op = some next ∧ next.Leaks ∧
            (¬ next.IsMap ∨
              ioSlotsMax - SlotTable.used slotKey next.slots <
                ioSlotsMax - SlotTable.used slotKey state.slots) := by
    intro state leaking isMap
    obtain ⟨op, next, stepped, leaksNext, lower⟩ :=
      leaking.progress (not_not.mp isMap)
    exact ⟨op, next, stepped, leaksNext, Or.inr lower⟩
  obtain ⟨later, final, ran, _, broken⟩ :=
    Transition.exists_run_to_goal
      (fun state : IoState =>
        ioSlotsMax - SlotTable.used slotKey state.slots)
      progress leaks
  exact ⟨later, final, ran, broken⟩

end IoState

/--
While no open chaos file is closed by a plain `close`, the table is the map
from the open files to what their own calls have made of them; after such a
run, one plain `close` of an open file can be continued to a state where it is
not.
-/
theorem tableIsMap_exact
    (ops : List IoOp)
    (state : IoState)
    (ran : IoState.start.run? ops = some state)
    (polite :
      Transition.EachStep IoState.step? IoState.Polite IoState.start ops) :
    state.IsMap ∧
      ∀ fd next,
        state.step? (.plainClose fd) = some next →
        ¬ state.Polite (.plainClose fd) →
        ∃ later final,
          next.run? later = some final ∧ ¬ final.IsMap := by
  have tracks : Tracks state.slots state.files :=
    Transition.run?_invariant_of_eachStep
      (fun (holds : Tracks (_ : IoState).slots _) polite stepped =>
        IoState.tracks_step holds polite stepped)
      ran polite IoState.tracks_start
  refine ⟨tracks.isMap, ?_⟩
  intro fd next stepped rude
  simp only [IoState.Polite, not_forall, not_not] at rude
  obtain ⟨file, member, same⟩ := rude
  simp only [IoState.step?, Option.some.injEq] at stepped
  subst stepped
  have fewer := tracks.length_closeFile member same
  have counted := tracks.counted
  refine IoState.Leaks.exists_run ?_
  unfold IoState.Leaks
  simp only
  omega

/-- Two files, and a descriptor that is handed out again. -/
def politeCalls : List IoOp :=
  [.openFile 5, .setQuota 5 100, .write 5 40 (some 30), .openFile 6,
    .setPartial 6 8, .close 5, .openFile 5, .write 5 10 (some 16)]

theorem tableIsMap_exact_twoFiles :
    ∃ state,
      IoState.start.run? politeCalls = some state ∧
        (state.files.map ChaosFile.written) = [0, 10] ∧
        state.IsMap := by
  have ends :
      (IoState.start.run? politeCalls).any
        (fun state =>
          (state.files.map ChaosFile.written) = [0, 10]) = true := by
    decide +kernel
  have polite :
      Transition.EachStep IoState.step? IoState.Polite IoState.start
        politeCalls := by
    decide +kernel
  obtain ⟨state, ran, written⟩ := (Option.any_eq_true _ _).mp ends
  exact ⟨state, ran, of_decide_eq_true written,
    (tableIsMap_exact politeCalls state ran polite).1⟩

/-- A new file inherits the quota of one closed by a plain `close`. -/
def rudeCalls : List IoOp :=
  [.openFile 5, .setQuota 5 100, .plainClose 5, .openFile 5]

theorem knobs_stale_plainClose :
    ∃ state,
      IoState.start.run? rudeCalls = some state ∧ ¬ state.IsMap := by
  have stale :
      (IoState.start.run? rudeCalls).any
        (fun state => ¬ ∀ file ∈ state.files,
          (findLocked state.slots file.fd).map state.slots =
            some file.slot) = true := by
    decide +kernel
  obtain ⟨state, ran, wrong⟩ := (Option.any_eq_true _ _).mp stale
  exact ⟨state, ran, fun isMap => of_decide_eq_true wrong isMap.knobs⟩

end FailurePlayground.ChaosIo
