import FailurePlayground.IoSequential

namespace FailurePlayground.ChaosIo

/-!
# A chaos file that only syncs slowly

A scenario that opens one file and sets its sync delay finds that delay at
every sync, however many writes come between.
-/

/-- The chaos file has no quota, writes in full, and syncs this slowly. -/
def Prepared (delay : UInt64) (client : Client) : Prop :=
  ∃ index, findLocked client.slots client.fd = some index ∧
    (client.slots index).quota = 0 ∧
    (client.slots index).partialMax = 0 ∧
    (client.slots index).fsyncDelayNs = delay

variable {delay : UInt64} {client : Client}

/-- A write leaves the slot's knobs alone. -/
theorem Prepared.took
    (prepared : Prepared delay client)
    (buf : List UInt8)
    (w : UInt64) :
    Prepared delay (client.took buf w) := by
  obtain ⟨index, found, quota, partialMax, fsyncDelay⟩ := prepared
  obtain ⟨foundAfter, slotAfter⟩ :=
    Client.took_slot found buf w
  exact ⟨index, foundAfter, by rw [slotAfter]; exact quota,
    by rw [slotAfter]; exact partialMax,
    by rw [slotAfter]; exact fsyncDelay⟩

/-- Whatever the kernel answers to a write, the knobs stay. -/
theorem Prepared.write
    (prepared : Prepared delay client)
    (buf : List UInt8)
    (kernel : UInt64 → Option UInt64) :
    Prepared delay (client.write buf kernel).1 := by
  unfold Client.write
  rcases IoState.chaosIoWrite_cases client.slots client.fd
      (UInt64.ofNat buf.length) kernel with
    refused | failed | nothing | ⟨w, wrote⟩
  · simp only [refused]
    exact prepared
  · simp only [failed]
    exact prepared
  · simp only [nothing]
    exact prepared
  · simp only [wrote]
    obtain ⟨index, found, quota, partialMax, fsyncDelay⟩ := prepared
    obtain ⟨foundAfter, slotAfter⟩ :=
      updateSlot_found found
        (fun slot => { slot with bytesWritten := slot.bytesWritten + w })
        (fun _ => rfl) fun _ => rfl
    exact ⟨index, foundAfter, (congrArg IoSlot.quota slotAfter).trans quota,
      (congrArg IoSlot.partialMax slotAfter).trans partialMax,
      (congrArg IoSlot.fsyncDelayNs slotAfter).trans fsyncDelay⟩

/-- Its syncs take the delay that was set. -/
theorem Prepared.fsyncDelay (prepared : Prepared delay client) :
    chaosIoFsyncDelay client.slots client.fd = delay := by
  obtain ⟨index, found, _, _, fsyncDelay⟩ := prepared
  simp only [chaosIoFsyncDelay, found, fsyncDelay]

/-- Setting the delay of the file's slot sets no other knob. -/
theorem Prepared.setDelay
    (prepared : Prepared delay client)
    (ns : UInt64) :
    Prepared ns { client with
      slots :=
        chaosIoSetFsyncDelay client.slots client.fd ns } := by
  obtain ⟨index, found, quota, partialMax, _⟩ := prepared
  obtain ⟨foundAfter, slotAfter⟩ :=
    updateSlot_found found
      (fun slot => { slot with fsyncDelayNs := ns }) (fun _ => rfl)
      fun _ => rfl
  simp only [Prepared, chaosIoSetFsyncDelay]
  exact ⟨index, foundAfter, by rw [slotAfter]; exact quota,
    by rw [slotAfter]; exact partialMax, by rw [slotAfter]⟩

/-- Opening a chaos file in a fresh table finds it a slot without knobs. -/
theorem prepared_of_opened
    {slots after : Slots}
    {fd opened : Int}
    (fresh : slots = fun _ => zeroSlot)
    (answered : chaosIoOpen slots fd = (after, .opened opened)) :
    Prepared 0 (Client.start after opened) := by
  subst fresh
  rcases IoState.chaosIoOpen_cases
      (fun _ => zeroSlot) fd with
    failed | ⟨full, _⟩ | ⟨index, free, taken⟩
  · rw [failed] at answered
    cases answered
  · rw [full] at answered
    cases answered
  · rw [taken] at answered
    cases answered
    have tracks :
        Tracks
          (Function.update (fun _ => zeroSlot) index
            (ChaosFile.fresh fd).slot)
          ([] ++ [ChaosFile.fresh fd]) :=
      IoState.tracks_start.open
        (fun file member => (List.not_mem_nil member).elim) free
    obtain ⟨at', found, here⟩ := tracks.found List.mem_cons_self
    exact ⟨at', found, congrArg IoSlot.quota here,
      congrArg IoSlot.partialMax here,
      congrArg IoSlot.fsyncDelayNs here⟩

end FailurePlayground.ChaosIo
