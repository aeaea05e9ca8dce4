import FailurePlayground.IoTable

namespace FailurePlayground.ChaosIo

/-!
# One sequential client of a chaos file

No call of another thread comes between the two critical sections of
`chaos_io_write`, so the quota is exact: what is left of it is what the next
request may still put into the file.
-/

/-- The table, a chaos descriptor and the bytes of its file. -/
structure Client where
  slots : Slots
  fd : Int
  file : List UInt8

/-- One call; `room` is what the kernel has room for when it writes. -/
inductive Call where
  | write (buffer : List UInt8) (room : Option UInt64)
  | setQuota (bytes : UInt64)
  | setPartial (maxChunk : UInt64)
  deriving Repr, DecidableEq

/-- Objects and files are smaller than this: `ssize_t` and `off_t`. -/
def sizeLimit : Nat := 2 ^ 63

namespace Client

/-- The slot of the client's descriptor. -/
def slot? (client : Client) : Option IoSlot :=
  (findLocked client.slots client.fd).map client.slots

/-- A call of `chaos_io_write` on the whole buffer, and what it returns. -/
def write
    (client : Client)
    (buffer : List UInt8)
    (kernel : UInt64 → Option UInt64) : Client × WriteReturn :=
  match chaosIoWrite client.slots client.fd
      (UInt64.ofNat buffer.length) kernel with
  | (slots, .bytes w) =>
      ({ client with
          slots := slots
          file := client.file ++ buffer.take w.toNat }, .bytes w)
  | (slots, answer) =>
      ({ client with slots := slots }, answer)

/-- Run one call; no object and no file outgrows its limit. -/
def step? (client : Client) : Call → Option Client
  | .write buffer room =>
      let next :=
        (client.write buffer fun want => room.map (min want)).1
      if buffer.length < sizeLimit ∧ next.file.length < sizeLimit then
        some next
      else
        none
  | .setQuota bytes =>
      some { client with
        slots := chaosIoSetQuota client.slots client.fd bytes }
  | .setPartial maxChunk =>
      some { client with
        slots := chaosIoSetPartial client.slots client.fd maxChunk }

/-- Run a finite sequence of calls. -/
abbrev run? : Client → List Call → Option Client :=
  Transition.run? step?

/-- The file just opened under a descriptor. -/
def start (slots : Slots) (fd : Int) : Client where
  slots := slots
  fd := fd
  file := []

end Client

/--
The retry loop of `pw_run`, with a kernel that takes all it is asked to: the
client, the successful calls and the bytes they wrote.  `none` means that
`fuel` iterations did not suffice.
-/
def retryLoop :
    Nat → Client → List UInt8 → Nat → Nat →
      Option (Client × Nat × Nat)
  | 0, _, _, _, _ =>
      none
  | fuel + 1, client, p, calls, total =>
      if p.length > 0 then
        match client.write p some with
        | (client, .bytes w) =>
            if w = 0 then
              some (client, calls, total)
            else
              retryLoop fuel client (p.drop w.toNat) (calls + 1)
                (total + w.toNat)
        | (client, .enospc) | (client, .failed) =>
            some (client, calls, total)
      else
        some (client, calls, total)

namespace IoSlot

/-- The quota is set and used up. -/
def Full (slot : IoSlot) : Prop :=
  slot.quota ≠ 0 ∧ slot.quota ≤ slot.bytesWritten

instance (slot : IoSlot) : Decidable slot.Full :=
  inferInstanceAs (Decidable (_ ∧ _))

/-- What is left of the quota for a request of `n` bytes. -/
def left (slot : IoSlot) (n : Nat) : Nat :=
  if slot.quota = 0 then
    n
  else
    min n (slot.quota.toNat - slot.bytesWritten.toNat)

/-- What a request of `n` bytes asks of the kernel. -/
def asked (slot : IoSlot) (n : Nat) : Nat :=
  if slot.partialMax = 0 then
    slot.left n
  else
    min (slot.left n) slot.partialMax.toNat

end IoSlot

/-- What every call of `chaos_io_write` does in a state of the client. -/
structure WriteSpec (client : Client) (slot : IoSlot) : Prop where
  /-- `bytes_written` is what the file holds. -/
  counted : slot.bytesWritten.toNat = client.file.length
  /-- A used-up quota refuses every request and changes nothing. -/
  refused :
    ∀ buffer kernel,
      slot.Full → client.write buffer kernel = (client, .enospc)
  /-- Nothing else does. -/
  enospc :
    ∀ buffer kernel,
      buffer.length < sizeLimit →
      (client.write buffer kernel).2 = .enospc → slot.Full
  /--
  Any other request asks the kernel, whatever the kernel does with it, for
  exactly the least of the three bounds, and hands on what the kernel answers.
  -/
  asks :
    ∀ buffer : List UInt8,
      buffer.length < sizeLimit →
      ¬ slot.Full →
      ∃ want : UInt64,
        want.toNat = slot.asked buffer.length ∧
          ∀ kernel,
            client.write buffer kernel =
              match kernel want with
              | none => (client, .failed)
              | some w =>
                  ({ client with
                      slots := chaosIoWriteAccount client.slots client.fd w
                      file := client.file ++ buffer.take w.toNat },
                    .bytes w)
  /-- What the kernel takes of it is appended and accounted for. -/
  takes :
    ∀ buffer room next,
      client.step? (.write buffer room) = some next →
      ∃ slotAfter part,
        next.slot? = some slotAfter ∧
          next.file = client.file ++ part ∧
          part <+: buffer ∧
          part.length ≤ slot.asked buffer.length ∧
          slotAfter.bytesWritten.toNat =
            slot.bytesWritten.toNat + part.length ∧
          (slot.quota ≠ 0 →
            slotAfter.bytesWritten.toNat ≤
              max slot.bytesWritten.toNat slot.quota.toNat)

/-- What one call may add to the file. -/
def Call.Adds : Call → List UInt8 → Prop
  | .write buffer _, part => part <+: buffer
  | .setQuota _, part | .setPartial _, part => part = []

/-- The quota that the last call of `chaos_io_set_quota` put in force. -/
def quotaInForce (calls : List Call) : UInt64 :=
  calls.foldl (fun quota call =>
    match call with
    | .setQuota bytes => bytes
    | .write _ _ | .setPartial _ => quota) 0

/-- The limit that the last call of `chaos_io_set_partial` put in force. -/
def limitInForce (calls : List Call) : UInt64 :=
  calls.foldl (fun limit call =>
    match call with
    | .setPartial maxChunk => maxChunk
    | .write _ _ | .setQuota _ => limit) 0

/--
The retry loop ends with everything appended that the quota leaves of a
buffer, in as few calls as the limit allows.
-/
def RetryEnds
    (client : Client)
    (slot : IoSlot)
    (buffer : List UInt8)
    (calls total : Nat)
    (outcome : Option (Client × Nat × Nat)) : Prop :=
  ∃ after made,
    outcome =
        some (after, calls + made, total + slot.left buffer.length) ∧
      after.file =
        client.file ++ buffer.take (slot.left buffer.length) ∧
      (slot.partialMax ≠ 0 →
        made =
          (slot.left buffer.length + slot.partialMax.toNat - 1) /
            slot.partialMax.toNat)

section Check

variable
  {slots : Slots}
  {fd : Int}
  {index : Fin ioSlotsMax}

/-- A zero limit cuts nothing, any other limit is a bound. -/
theorem cutPartial_toNat (slot : IoSlot) (want : UInt64) :
    (cutPartial slot want).toNat =
      if slot.partialMax = 0 then want.toNat
      else min want.toNat slot.partialMax.toNat := by
  unfold cutPartial
  by_cases off : slot.partialMax = 0
  · have notPositive : ¬ slot.partialMax > 0 := by
      rw [off]
      exact UInt64.lt_irrefl 0
    rw [if_neg fun both => notPositive both.1, if_pos off]
  · have positive : slot.partialMax > 0 :=
      UInt64.pos_iff_ne_zero.mpr off
    rw [if_neg off]
    by_cases cut : want > slot.partialMax
    · rw [if_pos ⟨positive, cut⟩]
      have more := UInt64.lt_iff_toNat_lt.mp cut
      omega
    · rw [if_neg fun both => cut both.2]
      have fits := UInt64.le_iff_toNat_le.mp (UInt64.not_lt.mp cut)
      omega

/-- A quota that is not used up lets a request ask for what is left. -/
theorem chaosIoWriteCheck_asked
    (found : findLocked slots fd = some index)
    (room : ¬ (slots index).Full)
    (n : UInt64) :
    ∃ want,
      chaosIoWriteCheck slots fd n = some want ∧
        want.toNat = (slots index).asked n.toNat := by
  by_cases off : (slots index).quota = 0
  · refine ⟨cutPartial (slots index) n, ?_, ?_⟩
    · have notPositive : ¬ (slots index).quota > 0 := by
        rw [off]
        exact UInt64.lt_irrefl 0
      simp only [chaosIoWriteCheck, found, notPositive, ↓reduceIte]
    · rw [cutPartial_toNat, IoSlot.asked, IoSlot.left, if_pos off]
  · have positive : (slots index).quota > 0 :=
      UInt64.pos_iff_ne_zero.mpr off
    have below : (slots index).bytesWritten < (slots index).quota :=
      UInt64.not_le.mp fun full => room ⟨off, full⟩
    have notFull :
        ¬ (slots index).bytesWritten ≥ (slots index).quota :=
      UInt64.not_le.mpr below
    have remains :
        ((slots index).quota - (slots index).bytesWritten).toNat =
          (slots index).quota.toNat -
            (slots index).bytesWritten.toNat :=
      UInt64.toNat_sub_of_le _ _ (UInt64.le_of_lt below)
    refine ⟨cutPartial (slots index)
      (if n > (slots index).quota - (slots index).bytesWritten then
        (slots index).quota - (slots index).bytesWritten
      else n), ?_, ?_⟩
    · simp only [chaosIoWriteCheck, found, positive, ↓reduceIte, notFull]
    · rw [cutPartial_toNat, IoSlot.asked, IoSlot.left, if_neg off]
      by_cases more :
          n > (slots index).quota - (slots index).bytesWritten
      · have larger := UInt64.lt_iff_toNat_lt.mp more
        have least :
            min n.toNat ((slots index).quota.toNat -
                (slots index).bytesWritten.toNat) =
              (slots index).quota.toNat -
                (slots index).bytesWritten.toNat := by
          omega
        rw [if_pos more, remains, least]
      · have fits := UInt64.le_iff_toNat_le.mp (UInt64.not_lt.mp more)
        have least :
            min n.toNat ((slots index).quota.toNat -
                (slots index).bytesWritten.toNat) = n.toNat := by
          omega
        rw [if_neg more, least]

end Check

/-- Accounting for nothing changes nothing. -/
theorem chaosIoWriteAccount_zero (slots : Slots) (fd : Int) :
    chaosIoWriteAccount slots fd 0 = slots := by
  cases found : findLocked slots fd with
  | none =>
      simp only [chaosIoWriteAccount, updateSlot, found]
  | some index =>
      simp only [chaosIoWriteAccount, updateSlot, found, UInt64.add_zero,
        Function.update_eq_self]

/-- Setting a knob changes that knob of the slot found. -/
theorem updateSlot_found
    {slots : Slots}
    {fd : Int}
    {index : Fin ioSlotsMax}
    (found : findLocked slots fd = some index)
    (change : IoSlot → IoSlot)
    (sameFd : ∀ slot, (change slot).fd = slot.fd)
    (sameUse : ∀ slot, (change slot).inUse = slot.inUse) :
    findLocked (updateSlot slots fd change) fd = some index ∧
      updateSlot slots fd change index = change (slots index) := by
  refine ⟨(findLocked_updateSlot slots fd fd sameFd sameUse).trans found,
    ?_⟩
  simp only [updateSlot, found, Function.update_self]

namespace Client

variable
  {client next : Client}
  {index : Fin ioSlotsMax}
  {buffer : List UInt8}

/-- A used-up quota refuses a write. -/
theorem write_full
    (found : findLocked client.slots client.fd = some index)
    (full : (client.slots index).Full)
    (buffer : List UInt8)
    (kernel : UInt64 → Option UInt64) :
    client.write buffer kernel = (client, .enospc) := by
  have checked :=
    chaosIoWriteCheck_full found (UInt64.pos_iff_ne_zero.mpr full.1)
      full.2 (UInt64.ofNat buffer.length)
  simp only [write, chaosIoWrite, checked]

/-- The client after the kernel took `w` bytes of a buffer. -/
def took (client : Client) (buffer : List UInt8) (w : UInt64) : Client :=
  { client with
    slots := chaosIoWriteAccount client.slots client.fd w
    file := client.file ++ buffer.take w.toNat }

/-- Any other write asks the kernel, and takes what the kernel takes. -/
theorem write_room
    (found : findLocked client.slots client.fd = some index)
    (room : ¬ (client.slots index).Full)
    (small : buffer.length < sizeLimit)
    (kernel : UInt64 → Option UInt64) :
    ∃ want,
      chaosIoWriteCheck client.slots client.fd
          (UInt64.ofNat buffer.length) = some want ∧
        want.toNat = (client.slots index).asked buffer.length ∧
        client.write buffer kernel =
          match kernel want with
          | none => (client, .failed)
          | some w => (client.took buffer w, .bytes w) := by
  obtain ⟨want, checked, asked⟩ :=
    chaosIoWriteCheck_asked found room (UInt64.ofNat buffer.length)
  have length : (UInt64.ofNat buffer.length).toNat = buffer.length := by
    unfold sizeLimit at small
    rw [UInt64.toNat_ofNat']
    omega
  rw [length] at asked
  refine ⟨want, checked, asked, ?_⟩
  cases answer : kernel want with
  | none =>
      simp only [write, chaosIoWrite, checked, answer]
  | some w =>
      by_cases some : w > 0
      · simp only [write, chaosIoWrite, checked, answer, some,
          ↓reduceIte, took]
      · have zero : w = 0 :=
          UInt64.le_antisymm (UInt64.not_lt.mp some) UInt64.zero_le
        subst zero
        simp only [write, chaosIoWrite, checked, answer, some,
          ↓reduceIte, took, chaosIoWriteAccount_zero]

/-- A request asks for no more than its length and what is left. -/
theorem asked_le (slot : IoSlot) (n : Nat) :
    slot.asked n ≤ slot.left n ∧ slot.left n ≤ n := by
  unfold IoSlot.asked IoSlot.left
  constructor
  · split
    · exact Nat.le_refl _
    · exact Nat.min_le_left _ _
  · split
    · exact Nat.le_refl _
    · exact Nat.min_le_left _ _

/-- A set quota is not exceeded by what is left of it. -/
theorem left_le_quota
    {slot : IoSlot}
    (quota : slot.quota ≠ 0)
    (room : ¬ slot.Full)
    (n : Nat) :
    slot.bytesWritten.toNat + slot.left n ≤ slot.quota.toNat := by
  have below : slot.bytesWritten < slot.quota :=
    UInt64.not_le.mp fun full => room ⟨quota, full⟩
  have order := UInt64.lt_iff_toNat_lt.mp below
  rw [IoSlot.left, if_neg quota]
  omega

/-- The count of a client's slot is what its file holds. -/
structure Counted (client : Client) : Prop where
  exists_slot : (findLocked client.slots client.fd).isSome = true
  counted :
    ∀ index,
      findLocked client.slots client.fd = some index →
      (client.slots index).bytesWritten.toNat = client.file.length
  small : client.file.length < sizeLimit

/-- The slot after the kernel took `w` bytes. -/
theorem took_slot
    (found : findLocked client.slots client.fd = some index)
    (buffer : List UInt8)
    (w : UInt64) :
    findLocked (client.took buffer w).slots client.fd = some index ∧
      (client.took buffer w).slots index =
        { client.slots index with
          bytesWritten := (client.slots index).bytesWritten + w } :=
  updateSlot_found found
    (fun slot => { slot with bytesWritten := slot.bytesWritten + w })
    (fun _ => rfl) fun _ => rfl

/-- A write that is run leaves the count equal to the file. -/
theorem Counted.took
    (counted : client.Counted)
    (found : findLocked client.slots client.fd = some index)
    {w : UInt64}
    (part : w.toNat ≤ buffer.length)
    (small : (client.took buffer w).file.length < sizeLimit) :
    (client.took buffer w).Counted ∧
      ((client.took buffer w).slots index).bytesWritten.toNat =
        (client.slots index).bytesWritten.toNat + w.toNat := by
  obtain ⟨foundAfter, slotAfter⟩ := took_slot found buffer w
  have before := counted.counted index found
  have grown :
      (client.took buffer w).file.length =
        client.file.length + w.toNat := by
    simp only [Client.took, List.length_append, List.length_take]
    omega
  have total :
      ((client.took buffer w).slots index).bytesWritten.toNat =
        (client.slots index).bytesWritten.toNat + w.toNat := by
    rw [grown] at small
    rw [slotAfter]
    simp only [UInt64.toNat_add]
    unfold sizeLimit at small
    omega
  refine ⟨⟨?_, ?_, small⟩, total⟩
  · exact Option.isSome_iff_exists.mpr ⟨index, foundAfter⟩
  · intro other foundOther
    obtain rfl := Option.some.inj (foundAfter.symm.trans foundOther)
    rw [total, grown, before]

/-- Setting a knob leaves the count equal to the file. -/
theorem Counted.knob
    (counted : client.Counted)
    {change : IoSlot → IoSlot}
    (sameFd : ∀ slot, (change slot).fd = slot.fd)
    (sameUse : ∀ slot, (change slot).inUse = slot.inUse)
    (sameCount :
      ∀ slot, (change slot).bytesWritten = slot.bytesWritten) :
    Counted { client with
      slots := updateSlot client.slots client.fd change } := by
  obtain ⟨index, found⟩ := Option.isSome_iff_exists.mp counted.exists_slot
  obtain ⟨foundAfter, slotAfter⟩ := updateSlot_found found change sameFd sameUse
  refine ⟨?_, ?_, counted.small⟩
  · exact Option.isSome_iff_exists.mpr ⟨index, foundAfter⟩
  · intro other foundOther
    obtain rfl := Option.some.inj (foundAfter.symm.trans foundOther)
    simp only [slotAfter, sameCount]
    exact counted.counted index found

/-- Taking nothing leaves the client alone. -/
theorem took_zero (client : Client) (buffer : List UInt8) :
    client.took buffer 0 = client := by
  simp only [took, chaosIoWriteAccount_zero, UInt64.toNat_zero,
    List.take_zero, List.append_nil]

/-- A kernel with some room takes no more than it is asked to. -/
theorem min_room_le (want room : UInt64) :
    (min want room).toNat ≤ want.toNat := by
  change (if want ≤ room then want else room).toNat ≤ want.toNat
  split
  · exact Nat.le_refl _
  · rename_i more
    exact Nat.le_of_lt (UInt64.lt_iff_toNat_lt.mp (UInt64.not_le.mp more))

/-- A write that is run takes a part of what it may ask for. -/
theorem step?_write
    (found : findLocked client.slots client.fd = some index)
    {room : Option UInt64}
    (stepped : client.step? (.write buffer room) = some next) :
    ∃ w,
      next = client.took buffer w ∧
        w.toNat ≤ (client.slots index).asked buffer.length ∧
        ((client.slots index).Full → w = 0) ∧
        next.file.length < sizeLimit := by
  simp only [step?, Option.ite_none_right_eq_some,
    Option.some.injEq] at stepped
  obtain ⟨⟨small, fileSmall⟩, rfl⟩ := stepped
  have nothing :
      ∀ {after : Client},
        after = client →
        after.file.length < sizeLimit →
        ∃ w,
          after = client.took buffer w ∧
            w.toNat ≤ (client.slots index).asked buffer.length ∧
            ((client.slots index).Full → w = 0) ∧
            after.file.length < sizeLimit := by
    rintro after rfl afterSmall
    exact ⟨0, (took_zero after buffer).symm, Nat.zero_le _,
      fun _ => rfl, afterSmall⟩
  by_cases full : (client.slots index).Full
  · have answered :=
      write_full found full buffer fun want => room.map (min want)
    refine nothing ?_ fileSmall
    rw [answered]
  · obtain ⟨want, _, asked, answered⟩ :=
      write_room found full small fun want => room.map (min want)
    cases room with
    | none =>
        refine nothing ?_ fileSmall
        rw [answered]
        rfl
    | some room =>
        have bound := min_room_le want room
        refine ⟨min want room, ?_, by omega, fun isFull => ?_, fileSmall⟩
        · rw [answered]
          rfl
        · exact absurd isFull full

/-- One call keeps the count and adds a part of its buffer to the file. -/
theorem Counted.step
    (counted : client.Counted)
    {call : Call}
    (stepped : client.step? call = some next) :
    next.Counted ∧
      ∃ part, call.Adds part ∧ next.file = client.file ++ part := by
  cases call with
  | write buffer room =>
      obtain ⟨index, found⟩ :=
        Option.isSome_iff_exists.mp counted.exists_slot
      obtain ⟨w, rfl, asked, _, fileSmall⟩ := step?_write found stepped
      have bounds := asked_le (client.slots index) buffer.length
      obtain ⟨after, _⟩ :=
        counted.took found (by omega) fileSmall
      exact ⟨after, buffer.take w.toNat, List.take_prefix _ _, rfl⟩
  | setQuota bytes =>
      simp only [step?, Option.some.injEq] at stepped
      subst stepped
      exact ⟨counted.knob (fun _ => rfl) (fun _ => rfl) fun _ => rfl,
        [], rfl, (List.append_nil _).symm⟩
  | setPartial maxChunk =>
      simp only [step?, Option.some.injEq] at stepped
      subst stepped
      exact ⟨counted.knob (fun _ => rfl) (fun _ => rfl) fun _ => rfl,
        [], rfl, (List.append_nil _).symm⟩

/-- A counted client's writes meet their specification. -/
theorem Counted.writeSpec
    (counted : client.Counted)
    (found : findLocked client.slots client.fd = some index) :
    WriteSpec client (client.slots index) where
  counted := counted.counted index found
  refused := fun buffer kernel full => write_full found full buffer kernel
  enospc := by
    intro buffer kernel small answered
    by_contra room
    obtain ⟨want, _, _, result⟩ := write_room found room small kernel
    rw [result] at answered
    cases answer : kernel want with
    | none =>
        simp [answer] at answered
    | some w =>
        simp [answer] at answered
  asks := by
    intro buffer small room
    obtain ⟨want, checked, asked, _⟩ := write_room found room small some
    refine ⟨want, asked, fun kernel => ?_⟩
    obtain ⟨again, checkedAgain, _, result⟩ :=
      write_room found room small kernel
    obtain rfl := Option.some.inj (checked.symm.trans checkedAgain)
    exact result
  takes := by
    intro buffer room next stepped
    obtain ⟨w, rfl, asked, fullTakes, fileSmall⟩ :=
      step?_write found stepped
    have bounds := asked_le (client.slots index) buffer.length
    have part : w.toNat ≤ buffer.length := by omega
    obtain ⟨_, total⟩ := counted.took found part fileSmall
    obtain ⟨foundAfter, slotAfter⟩ := took_slot found buffer w
    have taken : (buffer.take w.toNat).length = w.toNat := by
      rw [List.length_take]
      omega
    refine ⟨(client.took buffer w).slots index, buffer.take w.toNat,
      ?_, rfl, List.take_prefix _ _, ?_, ?_, ?_⟩
    · exact congrArg (Option.map (client.took buffer w).slots) foundAfter
    · rw [taken]
      exact asked
    · rw [taken]
      exact total
    · intro quota
      by_cases full : (client.slots index).Full
      · obtain rfl := fullTakes full
        rw [slotAfter]
        simp only [UInt64.add_zero]
        exact Nat.le_max_left _ _
      · have fits := left_le_quota quota full buffer.length
        omega

/-- A quota that is not used up leaves something of a nonempty buffer. -/
theorem left_pos
    {slot : IoSlot}
    {n : Nat}
    (room : ¬ slot.Full)
    (some : 0 < n) :
    0 < slot.left n := by
  unfold IoSlot.left
  by_cases off : slot.quota = 0
  · rw [if_pos off]
    exact some
  · have below : slot.bytesWritten < slot.quota :=
      UInt64.not_le.mp fun full => room ⟨off, full⟩
    have order := UInt64.lt_iff_toNat_lt.mp below
    rw [if_neg off]
    omega

/-- Nor does a limit on the size of one write stop it. -/
theorem asked_pos
    {slot : IoSlot}
    {n : Nat}
    (room : ¬ slot.Full)
    (some : 0 < n) :
    0 < slot.asked n := by
  have whole := left_pos room some
  unfold IoSlot.asked
  by_cases off : slot.partialMax = 0
  · rw [if_pos off]
    exact whole
  · have positive : 0 < slot.partialMax.toNat :=
      UInt64.lt_iff_toNat_lt.mp (UInt64.pos_iff_ne_zero.mpr off)
    rw [if_neg off]
    omega

/-- The limits of a slot leave less after the kernel took some bytes. -/
theorem left_after
    {slot : IoSlot}
    {n : Nat}
    {w : UInt64}
    (room : ¬ slot.Full)
    (within : w.toNat ≤ slot.left n) :
    IoSlot.left { slot with bytesWritten := slot.bytesWritten + w }
        (n - w.toNat) =
      slot.left n - w.toNat := by
  unfold IoSlot.left at within ⊢
  by_cases off : slot.quota = 0
  · rw [if_pos off, if_pos off]
  · have fits := left_le_quota off room n
    have bound := slot.quota.toNat_lt
    rw [IoSlot.left, if_neg off] at fits
    rw [if_neg off] at within
    rw [if_neg off, if_neg off]
    simp only [UInt64.toNat_add]
    omega

/-- One call fewer is left for what remains after a cut request. -/
theorem calls_after
    {whole limit : Nat}
    (positive : 0 < limit)
    (some : 0 < whole) :
    (whole - min whole limit + limit - 1) / limit + 1 =
      (whole + limit - 1) / limit := by
  rcases Nat.le_total whole limit with last | more
  · rw [Nat.min_eq_left last, Nat.sub_self, Nat.zero_add,
      Nat.div_eq_of_lt (Nat.sub_lt positive Nat.one_pos)]
    have shape : whole + limit - 1 = limit + (whole - 1) := by omega
    rw [shape, Nat.add_div_left _ positive,
      Nat.div_eq_of_lt (by omega)]
  · have shape : whole + limit - 1 = whole - limit + limit - 1 + limit := by
      omega
    rw [Nat.min_eq_right more, shape, Nat.add_div_right _ positive]

/-- The retry loop ends at once when there is nothing to append. -/
theorem retryEnds_nothing
    {slot : IoSlot}
    {outcome : Option (Client × Nat × Nat)}
    {calls total : Nat}
    (nothing : slot.left buffer.length = 0)
    (stopped : outcome = some (client, calls, total)) :
    RetryEnds client slot buffer calls total outcome := by
  refine ⟨client, 0, ?_, ?_, fun limited => ?_⟩
  · rw [nothing]
    exact stopped
  · rw [nothing, List.take_zero, List.append_nil]
  · have positive : 0 < slot.partialMax.toNat :=
      UInt64.lt_iff_toNat_lt.mp (UInt64.pos_iff_ne_zero.mpr limited)
    rw [nothing, Nat.zero_add, Nat.div_eq_of_lt (by omega)]

/-- One round of the retry loop, followed by the rounds for what remains. -/
theorem retryEnds_round
    {outcome : Option (Client × Nat × Nat)}
    {calls total : Nat}
    {w : UInt64}
    (room : ¬ (client.slots index).Full)
    (some : 0 < buffer.length)
    (asked : w.toNat = (client.slots index).asked buffer.length)
    (later :
      RetryEnds (client.took buffer w)
        { client.slots index with
          bytesWritten := (client.slots index).bytesWritten + w }
        (buffer.drop w.toNat) (calls + 1) (total + w.toNat) outcome) :
    RetryEnds client (client.slots index) buffer calls total outcome := by
  have bounds := asked_le (client.slots index) buffer.length
  have within : w.toNat ≤ (client.slots index).left buffer.length := by
    omega
  have remains := left_after room within
  rw [← List.length_drop] at remains
  have parts :
      w.toNat +
          ((client.slots index).left buffer.length - w.toNat) =
        (client.slots index).left buffer.length := by
    omega
  obtain ⟨after, made, ended, file, count⟩ := later
  rw [remains] at ended file count
  refine ⟨after, made + 1, ?_, ?_, fun limited => ?_⟩
  · rw [ended, Nat.add_assoc total, parts, Nat.add_assoc calls,
      Nat.add_comm 1]
  · rw [file, Client.took]
    simp only [List.append_assoc, ← List.take_add, parts]
  · have positive :
        0 < (client.slots index).partialMax.toNat :=
      UInt64.lt_iff_toNat_lt.mp (UInt64.pos_iff_ne_zero.mpr limited)
    have least :
        w.toNat =
          min ((client.slots index).left buffer.length)
            (client.slots index).partialMax.toNat := by
      rw [asked, IoSlot.asked, if_neg limited]
    have whole : 0 < (client.slots index).left buffer.length :=
      left_pos room some
    rw [count limited, least]
    exact calls_after positive whole

/-- The retry loop ends from any point of the buffer. -/
theorem retryLoop_ends
    {fuel : Nat}
    (found : findLocked client.slots client.fd = some index)
    (small : buffer.length < sizeLimit)
    (enough : buffer.length < fuel)
    (calls total : Nat) :
    RetryEnds client (client.slots index) buffer calls total
      (retryLoop fuel client buffer calls total) := by
  induction fuel generalizing client buffer calls total with
  | zero =>
      exact absurd enough (Nat.not_lt_zero _)
  | succ fuel inductionHypothesis =>
      by_cases more : buffer.length > 0
      · by_cases full : (client.slots index).Full
        · have order := UInt64.le_iff_toNat_le.mp full.2
          refine retryEnds_nothing ?_ ?_
          · rw [IoSlot.left, if_neg full.1]
            omega
          · simp only [retryLoop, more, ↓reduceIte,
              write_full found full]
        · obtain ⟨w, _, asked, answered⟩ :=
            write_room found full small some
          have positive := asked_pos full more
          have progress : w ≠ 0 := by
            rintro rfl
            rw [← asked] at positive
            exact absurd positive (by decide)
          obtain ⟨foundAfter, slotAfter⟩ := took_slot found buffer w
          have shorter :
              (buffer.drop w.toNat).length < buffer.length := by
            rw [List.length_drop]
            omega
          have later :=
            inductionHypothesis foundAfter
              (Nat.lt_trans shorter small) (by omega) (calls + 1)
              (total + w.toNat)
          rw [slotAfter] at later
          refine retryEnds_round full more asked ?_
          simp only [retryLoop, more, ↓reduceIte, answered, progress]
          exact later
      · refine retryEnds_nothing ?_ ?_
        · have bounds := asked_le (client.slots index) buffer.length
          omega
        · simp only [retryLoop, more, ↓reduceIte]

/-- The client after some calls, told by those calls. -/
structure Told (calls : List Call) (client : Client) : Prop where
  counted : client.Counted
  knobs :
    ∀ index,
      findLocked client.slots client.fd = some index →
      (client.slots index).quota = quotaInForce calls ∧
        (client.slots index).partialMax = limitInForce calls
  parts :
    ∃ parts,
      List.Forall₂ Call.Adds calls parts ∧ client.file = parts.flatten

/-- One more call is told as well. -/
theorem Told.step
    {calls : List Call}
    {call : Call}
    (told : client.Told calls)
    (stepped : client.step? call = some next) :
    next.Told (calls ++ [call]) := by
  obtain ⟨counted, part, adds, file⟩ := told.counted.step stepped
  obtain ⟨parts, added, before⟩ := told.parts
  refine ⟨counted, ?_, parts ++ [part], ?_, ?_⟩
  · obtain ⟨index, found⟩ :=
      Option.isSome_iff_exists.mp told.counted.exists_slot
    have knobs := told.knobs index found
    intro other foundOther
    cases call with
    | write buffer room =>
        obtain ⟨w, rfl, _⟩ := step?_write found stepped
        obtain ⟨foundAfter, slotAfter⟩ := took_slot found buffer w
        obtain rfl := Option.some.inj (foundAfter.symm.trans foundOther)
        rw [slotAfter]
        simpa [quotaInForce, limitInForce] using knobs
    | setQuota bytes =>
        simp only [step?, Option.some.injEq] at stepped
        subst stepped
        obtain ⟨foundAfter, slotAfter⟩ :=
          updateSlot_found found
            (fun slot => { slot with quota := bytes })
            (fun _ => rfl) fun _ => rfl
        obtain rfl := Option.some.inj (foundAfter.symm.trans foundOther)
        simp only [chaosIoSetQuota, slotAfter]
        simpa [quotaInForce, limitInForce] using knobs.2
    | setPartial maxChunk =>
        simp only [step?, Option.some.injEq] at stepped
        subst stepped
        obtain ⟨foundAfter, slotAfter⟩ :=
          updateSlot_found found
            (fun slot => { slot with partialMax := maxChunk })
            (fun _ => rfl) fun _ => rfl
        obtain rfl := Option.some.inj (foundAfter.symm.trans foundOther)
        simp only [chaosIoSetPartial, slotAfter]
        simpa [quotaInForce, limitInForce] using knobs.1
  · exact List.rel_append added (.cons adds .nil)
  · rw [file, before, List.flatten_append, List.flatten_singleton]

/-- A descriptor just opened finds a slot with every knob off. -/
theorem told_start
    {slots table : Slots}
    {fd : Int}
    (missing : findLocked slots fd = none)
    (opened : chaosIoOpen slots fd = (table, .opened fd)) :
    (start table fd).Told [] := by
  rcases IoState.chaosIoOpen_cases slots fd with
    failed | ⟨full, _⟩ | ⟨index, _, taken⟩
  · rw [failed] at opened
    simp at opened
  · rw [full] at opened
    simp at opened
  · rw [taken, Prod.mk.injEq] at opened
    obtain ⟨rfl, _⟩ := opened
    have here :
        ∀ other,
          findLocked
              (Function.update slots index (ChaosFile.fresh fd).slot)
              fd = some other →
          other = index := by
      intro other found
      have held := List.find?_some found
      by_contra elsewhere
      rw [Function.update_of_ne elsewhere] at held
      exact List.find?_eq_none.mp missing other (List.mem_finRange other)
        held
    have found :
        (findLocked
          (Function.update slots index (ChaosFile.fresh fd).slot)
          fd).isSome = true := by
      refine List.find?_isSome.mpr ⟨index, List.mem_finRange index, ?_⟩
      simp [ChaosFile.slot, ChaosFile.fresh]
    have empty : 0 < sizeLimit := by decide
    refine ⟨⟨found, ?_, empty⟩, ?_, [], .nil, rfl⟩
    · intro other foundOther
      obtain rfl := here other foundOther
      simp only [start, Function.update_self]
      rfl
    · intro other foundOther
      obtain rfl := here other foundOther
      simp only [start, Function.update_self]
      exact ⟨rfl, rfl⟩

end Client

/--
For one chaos descriptor and any sequence of writes and knob changes: every
write asks for the least of its length and the two limits in force, is refused
exactly at the quota, and what was accepted is counted and is the file; and
the retry loop appends all that the quota leaves of a buffer.
-/
theorem sequentialClient
    {slots table : Slots}
    {fd : Int}
    (missing : findLocked slots fd = none)
    (opened : chaosIoOpen slots fd = (table, .opened fd))
    {calls : List Call}
    {client : Client}
    (ran : (Client.start table fd).run? calls = some client) :
    ∃ slot parts,
      client.slot? = some slot ∧
        slot.quota = quotaInForce calls ∧
        slot.partialMax = limitInForce calls ∧
        WriteSpec client slot ∧
        List.Forall₂ Call.Adds calls parts ∧
        client.file = parts.flatten ∧
        ∀ buffer fuel,
          buffer.length < sizeLimit →
          buffer.length < fuel →
          RetryEnds client slot buffer 0 0
            (retryLoop fuel client buffer 0 0) := by
  have told : client.Told calls := by
    refine Transition.run?_history (fun calls client => client.Told calls)
      (Client.told_start missing opened) ?_ ran
      (Transition.eachStep_of_forall (fun _ _ => trivial) _)
    intro earlier before call next holds _ stepped
    exact holds.step stepped
  obtain ⟨index, found⟩ :=
    Option.isSome_iff_exists.mp told.counted.exists_slot
  obtain ⟨parts, added, file⟩ := told.parts
  obtain ⟨quota, limit⟩ := told.knobs index found
  have slot : client.slot? = some (client.slots index) :=
    congrArg (Option.map client.slots) found
  refine ⟨client.slots index, parts, slot, quota, limit,
    told.counted.writeSpec found, added, file, ?_⟩
  intro buffer fuel small enough
  exact Client.retryLoop_ends found small enough 0 0

/-- Short writes under a quota that is lowered below what is written. -/
def tightCalls : List Call :=
  [.setPartial 3, .setQuota 8, .write [1, 2, 3, 4, 5] (some 2),
    .write [6, 7, 8, 9] (some 100), .setQuota 4, .write [10] none,
    .setQuota 9]

theorem sequentialClient_tight :
    ∃ table client slot,
      chaosIoOpen (fun _ => zeroSlot) 5 = (table, .opened 5) ∧
        (Client.start table 5).run? tightCalls = some client ∧
        client.slot? = some slot ∧
        client.file.length = 5 ∧
        RetryEnds client slot [20, 21, 22, 23, 24, 25] 0 0
          (retryLoop 7 client [20, 21, 22, 23, 24, 25] 0 0) := by
  obtain ⟨table, opened⟩ :
      ∃ table, chaosIoOpen (fun _ => zeroSlot) 5 = (table, .opened 5) :=
    ⟨_, rfl⟩
  have ends :
      ((Client.start (chaosIoOpen (fun _ => zeroSlot) 5).1 5).run?
          tightCalls).any (fun client => client.file.length = 5) =
            true := by
    decide +kernel
  rw [opened] at ends
  obtain ⟨client, ran, length⟩ := (Option.any_eq_true _ _).mp ends
  obtain ⟨slot, _, found, _, _, _, _, _, retries⟩ :=
    sequentialClient (by decide +kernel) opened ran
  exact ⟨table, client, slot, opened, ran, found,
    of_decide_eq_true length, retries _ 7 (by decide) (by decide)⟩

end FailurePlayground.ChaosIo
