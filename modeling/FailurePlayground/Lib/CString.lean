import Mathlib.Data.List.Basic

namespace FailurePlayground

/-!
# Strings read through pointers

A C string is read byte by byte up to its terminating NUL, wherever that is.
A computation over such strings is kept together with the reads it makes, each
as the object its pointer came from and the offset into that object.  Every
loop runs on fuel; the bounds below hold for any amount of it.
-/

/-- The reads made so far, and the result unless the fuel ran out. -/
structure Traced (Object Result : Type) where
  reads : List (Object × Nat)
  result : Option Result
  deriving Repr, DecidableEq

namespace Traced

variable {Object First Second Third : Type}

/-- A loop that has used up its fuel. -/
def outOfFuel : Traced Object First where
  reads := []
  result := none

/-- Go on with the result of a computation, if it has one. -/
def bind
    (traced : Traced Object First)
    (next : First → Traced Object Second) :
    Traced Object Second :=
  match traced.result with
  | none =>
      { reads := traced.reads, result := none }
  | some value =>
      { reads := traced.reads ++ (next value).reads
        result := (next value).result }

instance : Monad (Traced Object) where
  pure value := { reads := [], result := some value }
  bind := Traced.bind

@[simp] theorem reads_pure (value : First) :
    (pure value : Traced Object First).reads = [] := rfl

@[simp] theorem result_pure (value : First) :
    (pure value : Traced Object First).result = some value := rfl

/-- Without a result there is nothing to go on with. -/
theorem bind_of_result_none
    {traced : Traced Object First}
    (none : traced.result = none)
    (next : First → Traced Object Second) :
    traced >>= next = { reads := traced.reads, result := Option.none } := by
  show traced.bind next = _
  simp only [Traced.bind, none]

/-- With a result the reads add up. -/
theorem bind_of_result_some
    {traced : Traced Object First}
    {value : First}
    (some : traced.result = Option.some value)
    (next : First → Traced Object Second) :
    traced >>= next =
      { reads := traced.reads ++ (next value).reads
        result := (next value).result } := by
  show traced.bind next = _
  simp only [Traced.bind, some]

@[simp] theorem pure_bind
    (value : First)
    (next : First → Traced Object Second) :
    (pure value >>= next) = next value := by
  rw [bind_of_result_some (result_pure value)]
  rfl

@[simp] theorem bind_assoc
    (traced : Traced Object First)
    (next : First → Traced Object Second)
    (later : Second → Traced Object Third) :
    traced >>= next >>= later =
      traced >>= fun value => next value >>= later := by
  cases first : traced.result with
  | none =>
      rw [bind_of_result_none first, bind_of_result_none first,
        bind_of_result_none rfl]
  | some value =>
      rw [bind_of_result_some first, bind_of_result_some first]
      cases second : (next value).result with
      | none =>
          rw [bind_of_result_none rfl, bind_of_result_none second]
      | some result =>
          rw [bind_of_result_some rfl, bind_of_result_some second,
            List.append_assoc]

/-- A computation in sequence has a result when both parts have one. -/
theorem result_bind_eq_some
    {traced : Traced Object First}
    {next : First → Traced Object Second}
    {value : First}
    (some : traced.result = Option.some value) :
    (traced >>= next).result = (next value).result := by
  rw [bind_of_result_some some]

/-- Every read stays inside the object its pointer came from. -/
def Within
    (width : Object → Nat)
    (traced : Traced Object First) : Prop :=
  ∀ read ∈ traced.reads, read.2 < width read.1

variable {width : Object → Nat}

@[simp] theorem within_pure (value : First) :
    (pure value : Traced Object First).Within width := by
  simp [Within]

@[simp] theorem within_outOfFuel :
    (outOfFuel : Traced Object First).Within width := by
  simp [Within, outOfFuel]

/-- A sequence stays inside when its parts do. -/
theorem within_bind_iff
    {traced : Traced Object First}
    {next : First → Traced Object Second} :
    (traced >>= next).Within width ↔
      traced.Within width ∧
        ∀ value, traced.result = some value →
          (next value).Within width := by
  cases first : traced.result with
  | none =>
      rw [bind_of_result_none first]
      exact ⟨fun within => ⟨within, nofun⟩, fun both => both.1⟩
  | some value =>
      rw [bind_of_result_some first]
      simp only [Within, List.mem_append, or_imp, forall_and,
        Option.some.injEq, forall_eq']

/-- What follows a computation that reads nothing outside decides. -/
theorem Within.bind
    {traced : Traced Object First}
    {next : First → Traced Object Second}
    (first : traced.Within width)
    (second : ∀ value, (next value).Within width) :
    (traced >>= next).Within width :=
  within_bind_iff.mpr ⟨first, fun value _ => second value⟩

end Traced

section CString

variable
  {Object : Type}
  (contents : Object → Nat → UInt8)
  (object : Object)

/-- Read the byte at an offset into an object. -/
def loadByte (offset : Nat) : Traced Object UInt8 where
  reads := [(object, offset)]
  result := some (contents object offset)

/-- The bytes from an offset up to the next NUL, as `%s` reads them. -/
def cString : (fuel offset : Nat) → Traced Object (List UInt8)
  | 0, _ => .outOfFuel
  | fuel + 1, offset => do
      let byte ← loadByte contents object offset
      if byte = 0 then
        pure []
      else
        let rest ← cString fuel (offset + 1)
        pure (byte :: rest)

/-- `strcmp` of an array and the string at an offset: are they equal? -/
def strcmpEq : (array : List UInt8) → (offset : Nat) → Traced Object Bool
  | [], _ => .outOfFuel
  | expected :: rest, offset => do
      let byte ← loadByte contents object offset
      if byte = expected then
        if byte = 0 then
          pure true
        else
          strcmpEq rest (offset + 1)
      else
        pure false

/-- The first `width` bytes of an object contain a NUL. -/
def Terminated (width : Nat) : Prop :=
  ∃ offset, offset < width ∧ contents object offset = 0

variable
  {contents object}
  {width : Object → Nat}

@[simp] theorem result_loadByte (offset : Nat) :
    (loadByte contents object offset).result =
      some (contents object offset) := rfl

theorem within_loadByte_iff {offset : Nat} :
    (loadByte contents object offset).Within width ↔
      offset < width object := by
  simp [Traced.Within, loadByte]

/-- A NUL ahead inside the object keeps the whole string inside. -/
theorem within_cString
    {stop : Nat}
    (inside : stop < width object)
    (nul : contents object stop = 0)
    {fuel offset : Nat}
    (ahead : offset ≤ stop) :
    (cString contents object fuel offset).Within width := by
  induction fuel generalizing offset with
  | zero =>
      exact Traced.within_outOfFuel
  | succ fuel inductionHypothesis =>
      refine Traced.within_bind_iff.mpr ⟨?_, ?_⟩
      · exact within_loadByte_iff.mpr (Nat.lt_of_le_of_lt ahead inside)
      · intro byte loaded
        rw [result_loadByte, Option.some.injEq] at loaded
        subst loaded
        split
        · exact Traced.within_pure _
        · rename_i more
          have further : offset + 1 ≤ stop := by
            refine Nat.lt_of_le_of_ne ahead fun same => more ?_
            rw [same, nul]
          exact (inductionHypothesis further).bind
            fun rest => Traced.within_pure _

/-- Without a NUL inside the object the string leaves it. -/
theorem not_within_cString
    {fuel offset : Nat}
    (unterminated :
      ∀ index, offset ≤ index → index < width object →
        contents object index ≠ 0)
    (inside : offset ≤ width object)
    (enough : width object < offset + fuel) :
    ¬ (cString contents object fuel offset).Within width := by
  induction fuel generalizing offset with
  | zero =>
      exact absurd inside (Nat.not_le.mpr enough)
  | succ fuel inductionHypothesis =>
      intro within
      rcases Traced.within_bind_iff.mp within with ⟨loaded, next⟩
      have bound := within_loadByte_iff.mp loaded
      have more := unterminated offset (Nat.le_refl offset) bound
      have later := next _ (result_loadByte offset)
      rw [if_neg more] at later
      exact inductionHypothesis
        (fun index after => unterminated index (by omega))
        bound (by omega) (Traced.within_bind_iff.mp later).1

/-- With enough fuel a string stays inside exactly when it ends there. -/
theorem within_cString_iff
    {fuel : Nat}
    (enough : width object < fuel) :
    (cString contents object fuel 0).Within width ↔
      Terminated contents object (width object) := by
  constructor
  · intro within
    refine Classical.byContradiction fun unterminated => ?_
    refine not_within_cString (fun index _ bound nul => ?_)
      (Nat.zero_le _) (by omega) within
    exact unterminated ⟨index, bound, nul⟩
  · rintro ⟨stop, inside, nul⟩
    exact within_cString inside nul (Nat.zero_le stop)

/-- With enough fuel a string with a NUL ahead is read to its end. -/
theorem exists_result_cString
    {stop : Nat}
    (nul : contents object stop = 0)
    {fuel offset : Nat}
    (ahead : offset ≤ stop)
    (enough : stop < offset + fuel) :
    ∃ string,
      (cString contents object fuel offset).result = some string := by
  induction fuel generalizing offset with
  | zero =>
      exact absurd ahead (Nat.not_le.mpr enough)
  | succ fuel inductionHypothesis =>
      rw [cString, Traced.result_bind_eq_some (result_loadByte offset)]
      split
      · exact ⟨[], rfl⟩
      · rename_i more
        have further : offset + 1 ≤ stop := by
          refine Nat.lt_of_le_of_ne ahead fun same => more ?_
          rw [same, nul]
        rcases inductionHypothesis further (by omega) with ⟨rest, read⟩
        rw [Traced.result_bind_eq_some read]
        exact ⟨_, rfl⟩

/-- A terminated array read with enough fuel gives the bytes before its NUL. -/
theorem result_cString
    {array : List UInt8}
    (terminated : 0 ∈ array)
    {fuel offset : Nat}
    (holds :
      ∀ index, index < array.length →
        contents object (offset + index) = array.getD index 0)
    (enough : array.length ≤ fuel) :
    (cString contents object fuel offset).result =
      some (array.takeWhile (· ≠ 0)) := by
  induction array generalizing fuel offset with
  | nil =>
      exact absurd terminated List.not_mem_nil
  | cons byte rest inductionHypothesis =>
      cases fuel with
      | zero =>
          exact absurd enough (by simp)
      | succ fuel =>
          have head : contents object offset = byte :=
            holds 0 (Nat.zero_lt_succ _)
          rw [cString, Traced.result_bind_eq_some (result_loadByte offset),
            head]
          by_cases nul : byte = 0
          · simp [nul]
          · have later : 0 ∈ rest :=
              (List.mem_cons.mp terminated).resolve_left
                (fun same => nul same.symm)
            have tail :
                ∀ index, index < rest.length →
                  contents object (offset + 1 + index) =
                    rest.getD index 0 := by
              intro index bound
              rw [Nat.add_assoc, Nat.add_comm 1 index]
              exact holds (index + 1) (Nat.succ_lt_succ bound)
            rw [if_neg nul,
              Traced.result_bind_eq_some
                (inductionHypothesis later tail
                  (Nat.le_of_succ_le_succ enough))]
            simp [nul]

/-- `strcmp` reads no further than the array it compares with. -/
theorem within_strcmpEq
    {array : List UInt8}
    {offset : Nat}
    (fits : offset + array.length ≤ width object) :
    (strcmpEq contents object array offset).Within width := by
  induction array generalizing offset with
  | nil =>
      exact Traced.within_outOfFuel
  | cons expected rest inductionHypothesis =>
      rw [List.length_cons] at fits
      refine Traced.Within.bind
        (within_loadByte_iff.mpr (by omega)) fun byte => ?_
      split
      · split
        · exact Traced.within_pure _
        · exact inductionHypothesis (by omega)
      · exact Traced.within_pure _

/-- `strcmp` of two terminated arrays tells whether they hold one string. -/
theorem result_strcmpEq
    {array other : List UInt8}
    (terminated : 0 ∈ array)
    (otherTerminated : 0 ∈ other)
    {offset : Nat}
    (holds :
      ∀ index, index < other.length →
        contents object (offset + index) = other.getD index 0) :
    (strcmpEq contents object array offset).result =
      some (decide
        (array.takeWhile (· ≠ 0) = other.takeWhile (· ≠ 0))) := by
  induction array generalizing other offset with
  | nil =>
      exact absurd terminated List.not_mem_nil
  | cons expected rest inductionHypothesis =>
      cases other with
      | nil =>
          exact absurd otherTerminated List.not_mem_nil
      | cons byte others =>
          have head : contents object offset = byte :=
            holds 0 (Nat.zero_lt_succ _)
          rw [strcmpEq, Traced.result_bind_eq_some (result_loadByte offset),
            head]
          by_cases same : byte = expected
          · subst same
            by_cases nul : byte = 0
            · simp [nul]
            · have later : 0 ∈ rest :=
                (List.mem_cons.mp terminated).resolve_left
                  (fun zero => nul zero.symm)
              have otherLater : 0 ∈ others :=
                (List.mem_cons.mp otherTerminated).resolve_left
                  (fun zero => nul zero.symm)
              have tail :
                  ∀ index, index < others.length →
                    contents object (offset + 1 + index) =
                      others.getD index 0 := by
                intro index bound
                rw [Nat.add_assoc, Nat.add_comm 1 index]
                exact holds (index + 1) (Nat.succ_lt_succ bound)
              rw [if_pos rfl, if_neg nul,
                inductionHypothesis later otherLater tail]
              simp [nul]
          · rw [if_neg same]
            by_cases nul : byte = 0
            · have more : expected ≠ 0 := fun zero =>
                same (nul.trans zero.symm)
              simp [nul, more]
            · by_cases ends : expected = 0
              · simp [nul, ends]
              · simp [nul, ends, Ne.symm same]

end CString

/--
`snprintf` of a string into an array: as much as fits before the NUL, and the
bytes after the NUL are left as they were.
-/
def snprintfInto
    {width : Nat}
    (array : Vector UInt8 width)
    (string : List UInt8) : Vector UInt8 width :=
  let cut := string.take (width - 1)
  Vector.ofFn fun index =>
    if index.val < cut.length then
      cut.getD index.val 0
    else if index.val = cut.length then
      0
    else
      array.get index

/-- What `snprintf` leaves is terminated. -/
theorem zero_mem_snprintfInto
    {width : Nat}
    (positive : 0 < width)
    (array : Vector UInt8 width)
    (string : List UInt8) :
    0 ∈ (snprintfInto array string).toList := by
  have short : (string.take (width - 1)).length < width := by
    rw [List.length_take]
    omega
  refine List.mem_of_getElem (i := (string.take (width - 1)).length)
    (h := by rw [Vector.length_toList]; exact short) ?_
  simp [snprintfInto]

/-- What `snprintf` leaves is the string, cut to what fits. -/
theorem takeWhile_snprintfInto
    {width : Nat}
    (positive : 0 < width)
    (array : Vector UInt8 width)
    {string : List UInt8}
    (clean : 0 ∉ string) :
    (snprintfInto array string).toList.takeWhile (· ≠ 0) =
      string.take (width - 1) := by
  have short : (string.take (width - 1)).length < width := by
    rw [List.length_take]
    omega
  have inside :
      (string.take (width - 1)).length <
        (snprintfInto array string).toList.length := by
    rw [Vector.length_toList]
    exact short
  have front :
      (snprintfInto array string).toList.take
          (string.take (width - 1)).length =
        string.take (width - 1) := by
    apply List.ext_getElem
    · rw [List.length_take, Nat.min_eq_left (Nat.le_of_lt inside)]
    · intro index _ upper
      rw [List.getElem_take]
      simp only [snprintfInto, Vector.toList_ofFn, List.getElem_ofFn,
        upper, ↓reduceIte]
      rw [List.getD_eq_getElem?_getD, List.getElem?_eq_getElem upper,
        Option.getD_some]
  have nul :
      (snprintfInto array string).toList[
        (string.take (width - 1)).length] = 0 := by
    simp only [snprintfInto, Vector.toList_ofFn, List.getElem_ofFn,
      Nat.lt_irrefl, ↓reduceIte]
  have cutClean :
      ∀ byte ∈ string.take (width - 1), decide (byte ≠ 0) = true := by
    intro byte member
    refine decide_eq_true fun zero => clean ?_
    rw [← zero]
    exact List.mem_of_mem_take member
  rw [← List.take_append_drop (string.take (width - 1)).length
      (snprintfInto array string).toList,
    front, List.takeWhile_append_of_pos cutClean,
    List.drop_eq_getElem_cons inside, nul]
  simp only [ne_eq, not_true_eq_false, decide_false,
    Bool.false_eq_true, not_false_eq_true, List.takeWhile_cons_of_neg,
    List.append_nil]

end FailurePlayground
