import ClientMetrics.Consent.Gate
import ClientMetrics.Proofs.Consent.Bits

/-!
# The gate has no memory

A gate and its store are called any number of times: texts are stored and removed under any keys,
read again, and the gate is asked. What it answers depends on the last write of the one key that it
reads, and on nothing else in the history.

* `ConsentGate.Call`, `ConsentGate.after` — the calls of a history, and the gate after them;
* `ConsentGate.stored_after` — what is stored under the key is what was written last;
* `Memoryless`, `memoryless_gate` — the answers of a gate, by the calls before.
-/

namespace ClientMetrics

/-- A consent string refuses a vendor. Without one nothing is refused. -/
def Refuses (value : Option String) (vendor : UInt16) : Prop :=
  VendorConsent.read (value.getD "") vendor = .notGiven

/-- A refusal is a zero at the place of the vendor in a string of digits. -/
theorem refuses_iff (value : Option String) (vendor : UInt16) :
    Refuses value vendor ↔ ∃ text, value = some text ∧
      VendorConsent.IsBitString text ∧ VendorConsent.bitOf? text vendor = some '0' := by
  cases value with
  | none =>
    -- the empty string has no place for anyone
    have hempty : VendorConsent.bitOf? "" vendor = none := by
      unfold VendorConsent.bitOf?
      split <;> rfl
    rw [Refuses, Option.getD_none, VendorConsent.read_eq_notGiven_iff, hempty]
    exact iff_of_false (fun h => nomatch h.2) fun ⟨_, h, _⟩ => nomatch h
  | some text =>
    rw [Refuses, Option.getD_some, VendorConsent.read_eq_notGiven_iff]
    exact ⟨fun h => ⟨text, rfl, h⟩, fun ⟨_, heq, h⟩ => Option.some.inj heq ▸ h⟩

namespace ConsentGate

/-- The consent string in the store. -/
def stored (g : ConsentGate) : Option String := g.store.find? vendorConsentsKey

/-- What was set is stored. -/
@[simp] theorem stored_setConsent (g : ConsentGate) (value : Option String) :
    (g.setConsent value).stored = value := by
  cases value with
  | none => exact g.store.find?_remove_self _
  | some value => exact g.store.find?_set_self _ value

@[simp] theorem vendorId_setConsent (g : ConsentGate) (value : Option String) :
    (g.setConsent value).vendorId = g.vendorId := by
  cases value <;> rfl

/-- A gate refuses collection exactly if the stored string refuses its vendor. -/
theorem isDisallowed_iff_refuses (g : ConsentGate) :
    g.isDisallowed = true ↔ Refuses g.stored g.vendorId := g.isDisallowed_iff

/-! ## Calls -/

/-- A call to the store of a gate, or to the gate itself. -/
inductive Call where
  | set (key value : String)
  | remove (key : String)
  | get (key default : String)
  | check
  deriving DecidableEq

/-- What a call answers. -/
inductive Answer where
  | nothing
  | removed (value : Option String)
  | text (value : String)
  | disallowed (yes : Bool)

/-- A call, with its answer. -/
def call (g : ConsentGate) : Call → Answer × ConsentGate
  | .set key value => (.nothing, { g with store := g.store.set key value })
  | .remove key => (.removed (g.store.find? key), { g with store := g.store.remove key })
  | .get key default => (.text (g.store.getD key default), g)
  | .check => (.disallowed g.isDisallowed, g)

/-- The gate after some calls. -/
def after (g : ConsentGate) (calls : List Call) : ConsentGate :=
  calls.foldl (fun g c => (g.call c).2) g

/-- What a call leaves under a key, if it writes it. -/
def Call.written? (key : String) : Call → Option (Option String)
  | set k value => if k = key then some (some value) else none
  | remove k => if k = key then some none else none
  | _ => none

/-- A call stores or removes what is kept under a key. -/
def Call.writes (key : String) (c : Call) : Bool := (c.written? key).isSome

/-! ## What is stored -/

/-- One call leaves what it writes under the key, or what was there before. -/
theorem stored_call (g : ConsentGate) (c : Call) :
    (g.call c).2.stored = (c.written? vendorConsentsKey).getD g.stored := by
  -- two calls write, under the key or under another one, and two only read
  cases c with
  | set key value =>
    show (g.store.set key value).find? vendorConsentsKey = _
    by_cases hkey : key = vendorConsentsKey
    · rw [hkey, ConsentStore.find?_set_self, Call.written?, if_pos rfl, Option.getD_some]
    · rw [ConsentStore.find?_set_of_ne _ _ (Ne.symm hkey), Call.written?, if_neg hkey]
      rfl
  | remove key =>
    show (g.store.remove key).find? vendorConsentsKey = _
    by_cases hkey : key = vendorConsentsKey
    · rw [hkey, ConsentStore.find?_remove_self, Call.written?, if_pos rfl, Option.getD_some]
    · rw [ConsentStore.find?_remove_of_ne _ (Ne.symm hkey), Call.written?, if_neg hkey]
      rfl
  | get key default => rfl
  | check => rfl

theorem vendorId_call (g : ConsentGate) (c : Call) : (g.call c).2.vendorId = g.vendorId := by
  cases c <;> rfl

/-- What was written last is stored, or what was there before any call. -/
theorem stored_after (g : ConsentGate) (calls : List Call) :
    (g.after calls).stored =
      ((calls.filterMap (Call.written? vendorConsentsKey)).getLast?).getD g.stored := by
  induction calls generalizing g with
  | nil => rfl
  | cons c calls ih =>
    -- the other calls find what the first one leaves, and a write among them replaces it
    show ((g.call c).2.after calls).stored = _
    rw [ih, stored_call]
    cases hwritten : c.written? vendorConsentsKey with
    | none => rw [List.filterMap_cons_none hwritten, Option.getD_none]
    | some value =>
      rw [List.filterMap_cons_some hwritten, List.getLast?_cons, Option.getD_some,
        Option.getD_some]

theorem vendorId_after (g : ConsentGate) (calls : List Call) :
    (g.after calls).vendorId = g.vendorId := by
  induction calls generalizing g with
  | nil => rfl
  | cons c calls ih => exact (ih _).trans (g.vendorId_call c)

/-! ## The last write -/

namespace Call

/-- A call that does not write a key leaves nothing under it. -/
theorem writes_eq_false_iff (key : String) (c : Call) :
    c.writes key = false ↔ c.written? key = none := by
  rw [writes, Option.isSome_eq_false_iff, Option.isNone_iff_eq_none]

/-- A text is left under a key only by storing it there. -/
theorem written?_eq_text_iff (key text : String) (c : Call) :
    c.written? key = some (some text) ↔ c = .set key text := by
  -- a removal leaves no text, and neither of the other calls writes
  cases c with
  | set k value =>
    rw [written?, set.injEq]
    split
    next hkey => simp [hkey]
    next hkey => simp [hkey]
  | remove k =>
    rw [written?]
    split <;> simp
  | get k default => simp [written?]
  | check => simp [written?]

/-- The last write of a key is the one after which it is not written any more. -/
theorem last_written_iff (key : String) (value : Option String) (calls : List Call) :
    (calls.filterMap (written? key)).getLast? = some value ↔
      ∃ before c later, calls = before ++ c :: later ∧ c.written? key = some value ∧
        ∀ d ∈ later, d.writes key = false := by
  -- from the end it is the first that writes the key
  rw [List.getLast?_filterMap, List.findSome?_eq_some_iff]
  constructor
  · rintro ⟨later, c, before, hcalls, hc, hlater⟩
    refine ⟨before.reverse, c, later.reverse, ?_, hc, fun d hd => ?_⟩
    · rw [← List.reverse_reverse calls, hcalls]
      simp
    · rw [writes_eq_false_iff]
      exact hlater d (List.mem_reverse.1 hd)
  · rintro ⟨before, c, later, rfl, hc, hlater⟩
    refine ⟨later.reverse, c, before.reverse, by simp, hc, fun d hd => ?_⟩
    rw [← writes_eq_false_iff]
    exact hlater d (List.mem_reverse.1 hd)

/-- The writes of a key can be told from the calls that write it. -/
theorem filterMap_filter_writes (key : String) (calls : List Call) :
    (calls.filter (writes key)).filterMap (written? key) = calls.filterMap (written? key) := by
  -- a call that is left out by the filter would have added nothing
  induction calls with
  | nil => rfl
  | cons c calls ih =>
    cases hwritten : c.written? key with
    | none =>
      rw [List.filter_cons_of_neg (by simp [writes, hwritten]), ih,
        List.filterMap_cons_none hwritten]
    | some value =>
      rw [List.filter_cons_of_pos (by simp [writes, hwritten]),
        List.filterMap_cons_some hwritten, List.filterMap_cons_some hwritten, ih]

end Call

/-- The answers of a gate to the question whether collection is refused, by the calls before. -/
structure Memoryless (vendor : UInt16) (refused : List Call → Bool) : Prop where
  /-- It is refused exactly if what was written last under the key is a string of digits with a zero
  at the place of the vendor. -/
  last_write : ∀ calls, refused calls = true ↔
    ∃ before text later, calls = before ++ .set vendorConsentsKey text :: later ∧
      (∀ c ∈ later, c.writes vendorConsentsKey = false) ∧
      VendorConsent.IsBitString text ∧ VendorConsent.bitOf? text vendor = some '0'
  /-- Writes of other keys, reads and questions do not change the answer. -/
  unchanged : ∀ calls c, c.writes vendorConsentsKey = false → refused (calls ++ [c]) = refused calls
  /-- After the same writes of the key the answer is the same. -/
  same_writes : ∀ calls calls',
    calls.filter (Call.writes vendorConsentsKey) = calls'.filter (Call.writes vendorConsentsKey) →
      refused calls = refused calls'

/-- A gate whose store is empty at first has no memory of its own: whenever it is asked, what it
answers follows from the last write of the one key that it reads. -/
theorem memoryless_gate (vendor : UInt16) :
    let fresh : ConsentGate := { vendorId := vendor }
    Memoryless vendor (fun calls => (fresh.after calls).isDisallowed) ∧
      ∀ calls,
        ((fresh.after calls).call .check).1 = .disallowed (fresh.after calls).isDisallowed := by
  intro fresh
  -- the answer as a property of the writes alone
  have hrefused : ∀ calls, (fresh.after calls).isDisallowed = true ↔
      Refuses ((calls.filterMap (Call.written? vendorConsentsKey)).getLast?).join vendor := by
    intro calls
    have hstored := fresh.stored_after calls
    have hnone : fresh.stored = none := ConsentStore.find?_empty _
    rw [hnone] at hstored
    rw [isDisallowed_iff_refuses, hstored, vendorId_after]
    cases (calls.filterMap (Call.written? vendorConsentsKey)).getLast? <;> rfl
  have hsame : ∀ calls calls',
      calls.filterMap (Call.written? vendorConsentsKey) =
        calls'.filterMap (Call.written? vendorConsentsKey) →
      (fresh.after calls).isDisallowed = (fresh.after calls').isDisallowed := by
    intro calls calls' heq
    rw [Bool.eq_iff_iff, hrefused, hrefused, heq]
  refine ⟨?_, fun calls => rfl⟩
  exact {
    last_write := by
      intro calls
      rw [hrefused, refuses_iff]
      constructor
      · rintro ⟨text, htext, hrefuses⟩
        obtain ⟨before, c, later, hcalls, hc, hlater⟩ :=
          (Call.last_written_iff _ _ _).1 (Option.join_eq_some_iff.1 htext)
        obtain rfl := (Call.written?_eq_text_iff _ _ _).1 hc
        exact ⟨before, text, later, hcalls, hlater, hrefuses⟩
      · rintro ⟨before, text, later, hcalls, hlater, hrefuses⟩
        refine ⟨text, ?_, hrefuses⟩
        rw [Option.join_eq_some_iff, Call.last_written_iff]
        exact ⟨before, _, later, hcalls, (Call.written?_eq_text_iff _ _ _).2 rfl, hlater⟩
    unchanged := by
      intro calls c hc
      refine hsame _ _ ?_
      rw [Call.writes_eq_false_iff] at hc
      rw [List.filterMap_append, List.filterMap_cons_none hc, List.filterMap_nil, List.append_nil]
    same_writes := by
      intro calls calls' heq
      refine hsame _ _ ?_
      rw [← Call.filterMap_filter_writes, heq, Call.filterMap_filter_writes] }

end ConsentGate

end ClientMetrics
