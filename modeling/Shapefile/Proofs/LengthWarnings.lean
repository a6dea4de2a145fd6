import Shapefile.Proofs.Asking

/-! # Warnings about declared lengths

A run warns of the records that are handed over and declare another length than their content has,
and of no others. The warning is in the log when the shape is handed over. Nothing else depends on
whether a reading warns.

What comes of a run is told by an `Account`, in which there is nothing of the warnings. Then the
account does for readings that warn and for those that do not (`Desk.warnings_exact`). -/

namespace Shapefile

@[simp] theorem warningsOf_nil (warns : Bool) : warningsOf warns [] = [] := by
  cases warns <;> rfl

theorem warningsOf_cons (warns : Bool) (r : Record) (records : List Record) :
    warningsOf warns (r :: records) = warningsOf warns [r] ++ warningsOf warns records := by
  cases warns with
  | false => rfl
  | true =>
    simp only [warningsOf, if_true]
    rw [← List.filterMap_append, List.singleton_append]

theorem level_of_mem_warningsOf {warns : Bool} {records : List Record} {entry : Entry}
    (h : entry ∈ warningsOf warns records) : entry.level = .warning := by
  cases warns with
  | false => cases h
  | true =>
    obtain ⟨r, -, hr⟩ := List.mem_filterMap.mp h
    simp only [Record.mismatch?, Option.ite_none_left_eq_some] at hr
    obtain ⟨-, hr⟩ := hr
    cases hr
    rfl

/-- The shapes of records as they are handed over, each with the log at that moment, the latest line
first. -/
def sights (warns : Bool) : List Entry → List Record → List (Shape × List Entry)
  | _, [] => []
  | log, r :: records =>
    let log := (warningsOf warns [r]).reverse ++ log
    (r.shape, log) :: sights warns log records

theorem shapes_sights (warns : Bool) (log : List Entry) (records : List Record) :
    (sights warns log records).map Prod.fst = records.map Record.shape := by
  induction records generalizing log with
  | nil => rfl
  | cons r records ih => rw [sights, List.map_cons, List.map_cons, ih]

/-- The lines of a log that are warnings. -/
def warningsIn (log : List Entry) : List Entry := log.filter fun entry => entry.level = .warning

theorem warningsIn_append (log log' : List Entry) :
    warningsIn (log ++ log') = warningsIn log ++ warningsIn log' := List.filter_append ..

theorem warningsIn_warningsOf (warns : Bool) (records : List Record) :
    warningsIn (warningsOf warns records).reverse = (warningsOf warns records).reverse := by
  refine List.filter_eq_self.mpr fun entry h => ?_
  exact decide_eq_true (level_of_mem_warningsOf (List.mem_reverse.mp h))

theorem warningsIn_debug {log : List Entry} (h : ∀ entry ∈ log, entry.level = .debug) :
    warningsIn log = [] := by
  refine List.filter_eq_nil_iff.mpr fun entry hentry => ?_
  rw [h entry hentry]
  decide

theorem level_totals (n : Nat) (left : Int) :
    ∀ entry ∈ [Entry.totals n left], entry.level = .debug := by
  intro entry h
  rw [List.mem_singleton.mp h]
  rfl

namespace Desk

variable {σ χ : Type}

/-- A memo beside the shapes that were handed over so far, each with the log at that moment. -/
abbrev Sighted (χ : Type) := List (Shape × List Entry) × χ

/-- A consumer that leaves the reading alone, and notes each shape with the log as it finds it. It
may fail. -/
def looking (act : Shape → χ → Except Fault Bool × χ) : Consumer σ (Sighted χ) :=
  fun shape (rd, d) =>
    match act shape d.memo.2 with
    | (.ok more, memo) => .ok more (rd, { d with memo := (d.memo.1 ++ [(shape, d.log)], memo) })
    | (.error f, memo) => .error f (rd, { d with memo := (d.memo.1 ++ [(shape, d.log)], memo) })

section
variable {act : Shape → χ → Except Fault Bool × χ} {shape : Shape} {memo memo' : χ}
  {d : Desk σ (Sighted χ)}

theorem looking_of_ok {more : Bool} (h : act shape memo = (.ok more, memo')) (rd : Reading)
    (hd : d.memo.2 = memo) :
    looking act shape (rd, d) =
      .ok more (rd, { d with memo := (d.memo.1 ++ [(shape, d.log)], memo') }) := by
  simp only [looking, hd, h]

theorem looking_of_error {f : Fault} (h : act shape memo = (.error f, memo')) (rd : Reading)
    (hd : d.memo.2 = memo) :
    looking act shape (rd, d) =
      .error f (rd, { d with memo := (d.memo.1 ++ [(shape, d.log)], memo') }) := by
  simp only [looking, hd, h]

end

/-- What comes of a reading, but for its warnings. -/
structure Account (σ χ : Type) where
  /-- The records whose shapes are handed over. -/
  records : List Record
  fault? : Option Fault
  meter : Meter
  phase : Phase
  source : σ
  /-- The lines of the log that are no warnings, the latest first. -/
  debug : List Entry
  memo : χ

namespace Account

variable {warns : Bool} {first : Nat} {d : Desk σ (Sighted χ)}

/-- The reading and its desk `d` as they are then, where `first` shapes were counted before. -/
def onto (a : Account σ χ) (warns : Bool) (first : Nat) (d : Desk σ (Sighted χ)) :
    Reading × Desk σ (Sighted χ) :=
  (⟨a.meter, a.phase, first + a.records.length, warns⟩,
    { d with
      source := a.source
      log := a.debug ++ ((warningsOf warns a.records).reverse ++ d.log)
      memo := (d.memo.1 ++ sights warns d.log a.records, a.memo) })

/-- The result with this value, if there is no fault. -/
def result {α : Type} (a : Account σ χ) (value : α) (s : Reading × Desk σ (Sighted χ)) :
    EStateM.Result Fault (Reading × Desk σ (Sighted χ)) α :=
  match a.fault? with
  | none => .ok value s
  | some f => .error f s

/-- The account of a reading that hands over no further record. -/
def last (fault? : Option Fault) (s : Meter × σ) (phase : Phase) (debug : List Entry)
    (memo : χ) : Account σ χ :=
  ⟨[], fault?, s.1, phase, s.2, debug, memo⟩

theorem onto_last (fault? : Option Fault) (s : Meter × σ) (phase : Phase) (debug : List Entry)
    (memo : χ) :
    (last fault? s phase debug memo).onto warns first d =
      (⟨s.1, phase, first, warns⟩,
        { d with source := s.2, log := debug ++ d.log, memo := (d.memo.1, memo) }) := by
  simp only [onto, last, warningsOf_nil, List.reverse_nil, List.nil_append, sights,
    List.append_nil, List.length_nil, Nat.add_zero]

/-- The account with a record that is handed over before all others. -/
def after (r : Record) (a : Account σ χ) : Account σ χ := { a with records := r :: a.records }

theorem onto_after (a : Account σ χ) (r : Record) (source : σ) (memo : χ) :
    (a.after r).onto warns first d =
      a.onto warns (first + 1)
        { d with
          source
          log := (warningsOf warns [r]).reverse ++ d.log
          memo := (d.memo.1 ++ [(r.shape, (warningsOf warns [r]).reverse ++ d.log)], memo) } := by
  simp only [after, onto, List.length_cons, warningsOf_cons warns r a.records, List.reverse_append,
    List.append_assoc, sights, List.singleton_append, Nat.add_assoc, Nat.add_comm 1]

end Account

variable [Source σ]

/-- Records that are read one after the other while something is left of the budget, of which the
first has the object id `first`. -/
inductive ReadInRow : Nat → Meter × σ → List Record → Meter × σ → Prop where
  | nil (first : Nat) (s : Meter × σ) : ReadInRow first s [] s
  | cons {first : Nat} {s t u : Meter × σ} {r : Record} {records : List Record}
      (left : 0 < s.1.left) (read : Record.read Source.read first s = .ok r t)
      (rest : ReadInRow (first + 1) t records u) : ReadInRow first s (r :: records) u

theorem ReadInRow.content {first : Nat} {s u : Meter × σ} {records : List Record}
    (H : ReadInRow first s records u) {i : Nat} {r : Record} (hr : records[i]? = some r) :
    ∃ c : Content, r.shape = c.shape (some (first + i : Nat)) (some r.header.number) ∧
      r.decoded = c.size := by
  induction H generalizing i with
  | nil => cases hr
  | cons _ read _ ih =>
    cases i with
    | zero =>
      cases hr
      obtain ⟨c, hshape, hdecoded, -⟩ := Record.read_content read
      exact ⟨c, hshape, hdecoded⟩
    | succ i =>
      obtain ⟨c, hshape, hdecoded⟩ := ih hr
      refine ⟨c, ?_, hdecoded⟩
      rw [hshape, Nat.add_assoc, Nat.add_comm 1]

/-- The account is of a reading from `s` on: its records are those that are read there, and the
reading is left behind the last of them or where a further record failed. -/
structure Account.Justified (a : Account σ χ) (first : Nat) (s : Meter × σ) : Prop where
  reads : ∃ last, ReadInRow first s a.records last ∧
    ((a.meter, a.source) = last ∨ ∃ f, a.fault? = some f ∧ 0 < last.1.left ∧
      Record.read Source.read (first + a.records.length) last = .error f (a.meter, a.source))
  debug : ∀ entry ∈ a.debug, entry.level = .debug

theorem Account.Justified.after {a : Account σ χ} {first : Nat} {s t : Meter × σ} {r : Record}
    (left : 0 < s.1.left) (read : Record.read Source.read first s = .ok r t)
    (H : a.Justified (first + 1) t) : (a.after r).Justified first s := by
  obtain ⟨last, hrow, hend⟩ := H.reads
  refine ⟨⟨last, .cons left read hrow, ?_⟩, H.debug⟩
  rw [Nat.add_assoc, Nat.add_comm 1] at hend
  exact hend

theorem Account.Justified.warnings {a : Account σ χ} {first : Nat} {s : Meter × σ}
    (H : a.Justified first s) (warns : Bool) (n : Nat)
    (d : Desk σ (Sighted χ)) :
    warningsIn (a.onto warns n d).2.log =
      (warningsOf warns a.records).reverse ++ warningsIn d.log := by
  simp only [onto, warningsIn_append, warningsIn_debug H.debug, warningsIn_warningsOf,
    List.nil_append]

/-! ## One record -/

section
variable {n : Nat} {s t : Meter × σ}

/-- A record that cannot be read ends the reading. Whether it warns is of no matter there. -/
theorem advance_of_failure {f : Fault} (left : 0 < s.1.left)
    (read : Record.read Source.read n s = .error f t) :
    ∃ phase debug, (∀ entry ∈ debug, Entry.level entry = .debug) ∧
      ∀ warns (d : Desk σ χ), d.source = s.2 →
        Reading.advance link (⟨s.1, .reading, n, warns⟩, d) =
          .error f (⟨t.1, phase, n, warns⟩, { d with source := t.2, log := debug ++ d.log }) := by
  have hadvance (warns : Bool) (d : Desk σ χ) (hd : d.source = s.2) :
      Reading.advance link (⟨s.1, .reading, n, warns⟩, d) =
        .error f (if Reading.endsFailed f = true then
            (⟨t.1, .failed, n, warns⟩, { d with source := t.2 })
          else Reading.settle link (⟨t.1, .reading, n, warns⟩, { d with source := t.2 })) := by
    apply advance_of_fault
    · exact left
    · rw [hd]
      exact read
  cases hends : Reading.endsFailed f with
  | true =>
    refine ⟨.failed, [], List.forall_mem_nil _, fun warns d hd => ?_⟩
    rw [hadvance warns d hd, if_pos hends]
    rfl
  | false =>
    refine ⟨.done, [.totals n t.1.left], level_totals _ _, fun warns d hd => ?_⟩
    rw [hadvance warns d hd, if_neg (Bool.eq_false_iff.mp hends)]
    rfl

end

/-! ## Runs -/

/-- Every reading from `s` on goes to what the account says, whether it warns or not. -/
def GoesTo (go : Action σ (Sighted χ) Unit) (first : Nat) (s : Meter × σ)
    (memo : χ) (a : Account σ χ) : Prop :=
  ∀ warns (d : Desk σ (Sighted χ)), d.source = s.2 → d.memo.2 = memo →
    go (⟨s.1, .reading, first, warns⟩, d) = a.result () (a.onto warns first d)

theorem Account.last_justified {fault? : Option Fault} {s : Meter × σ} {phase : Phase}
    {debug : List Entry} {memo : χ} (first : Nat)
    (hdebug : ∀ entry ∈ debug, Entry.level entry = .debug) :
    (Account.last fault? s phase debug memo).Justified first s :=
  ⟨⟨s, .nil first s, .inl rfl⟩, hdebug⟩

variable {act : Shape → χ → Except Fault Bool × χ} {first fuel : Nat} {s t : Meter × σ}
  {memo memo' : χ}

theorem deliver_ends (left : s.1.left ≤ 0) :
    GoesTo (Reading.deliver link (looking act) (fuel + 1) .suspended) first s memo
      (.last none s .done [.totals first s.1.left] memo) := by
  intro warns d hd hmemo
  subst hmemo
  have hleft : Reading.left ⟨s.1, .reading, first, warns⟩ ≤ 0 := left
  rw [Reading.deliver_of_end (Reading.advance_of_left hleft), Account.onto_last, ← hd]
  rfl

theorem deliver_fails {f : Fault} (left : 0 < s.1.left)
    (read : Record.read Source.read first s = .error f t) :
    ∃ a : Account σ χ, a.Justified first s ∧
      GoesTo (Reading.deliver link (looking act) (fuel + 1) .suspended) first s memo a := by
  obtain ⟨phase, debug, hdebug, hadvance⟩ :=
    advance_of_failure (χ := Sighted χ) left read
  refine ⟨.last (some f) t phase debug memo, ⟨⟨s, .nil first s, ?_⟩, hdebug⟩, ?_⟩
  · exact .inr ⟨f, rfl, left, read⟩
  · intro warns d hd hmemo
    subst hmemo
    rw [Reading.deliver_of_error (hadvance warns d hd), Account.onto_last]
    rfl

/-- The consumer's answer decides how a reading goes on from a record. -/
theorem deliver_reads {r : Record} (left : 0 < s.1.left)
    (read : Record.read Source.read first s = .ok r t)
    (ih : ∀ memo', ∃ a : Account σ χ, a.Justified (first + 1) t ∧
      GoesTo (Reading.deliver link (looking act) fuel .suspended) (first + 1) t memo' a) :
    ∃ a : Account σ χ, a.Justified first s ∧
      GoesTo (Reading.deliver link (looking act) (fuel + 1) .suspended) first s memo a := by
  rcases hact : act r.shape memo with ⟨answer, memo'⟩
  have hadvance (warns : Bool) (d : Desk σ (Sighted χ)) (hd : d.source = s.2) :
      Reading.advance link (⟨s.1, .reading, first, warns⟩, d) =
        .ok (some r.shape) (⟨t.1, .reading, first + 1, warns⟩,
          { d with source := t.2, log := (warningsOf warns [r]).reverse ++ d.log }) := by
    apply advance_of_read
    · exact left
    · rw [hd]
      exact read
  cases answer with
  | error f =>
    refine ⟨(Account.last (some f) t .reading [] memo').after r,
      .after left read (Account.last_justified _ (List.forall_mem_nil _)), ?_⟩
    intro warns d hd hmemo
    rw [Reading.deliver_of_fault (hadvance warns d hd) (looking_of_error hact _ hmemo),
      Account.onto_after _ r t.2 memo', Account.onto_last]
    rfl
  | ok more =>
    cases more with
    | false =>
      refine ⟨(Account.last none t .done [.totals (first + 1) t.1.left] memo').after r,
        .after left read (Account.last_justified _ (level_totals _ _)), ?_⟩
      intro warns d hd hmemo
      rw [Reading.deliver_of_enough (hadvance warns d hd) (looking_of_ok hact _ hmemo),
        Account.onto_after _ r t.2 memo', Account.onto_last]
      rfl
    | true =>
      obtain ⟨a, hjustified, hgoes⟩ := ih memo'
      refine ⟨a.after r, .after left read hjustified, ?_⟩
      intro warns d hd hmemo
      rw [Reading.deliver_of_more (hadvance warns d hd) (looking_of_ok hact _ hmemo),
        Account.onto_after a r t.2 memo']
      exact hgoes warns _ rfl rfl

/-- Every record takes something off the budget, so the fuel stays beyond what is left of it. -/
theorem deliver_accounted (act : Shape → χ → Except Fault Bool × χ)
    (hfuel : s.1.left.toNat < fuel) :
    ∃ a : Account σ χ, a.Justified first s ∧
      GoesTo (Reading.deliver link (looking act) fuel .suspended) first s memo a := by
  induction fuel generalizing first s memo with
  | zero => exact absurd hfuel (Nat.not_lt_zero _)
  | succ fuel ih =>
    rcases Int.lt_or_le 0 s.1.left with left | left
    · cases hread : Record.read Source.read first s with
      | error f t => exact deliver_fails left hread
      | ok r t =>
        have hless : t.1.left.toNat < fuel := by
          rw [(Record.read_takes hread).1, Meter.left_count_of_pos left]
          omega
        exact deliver_reads left hread fun _ => ih hless
    · exact ⟨_, Account.last_justified first (level_totals _ _), deliver_ends left⟩

theorem run_accounted (act : Shape → χ → Except Fault Bool × χ) (budget : Int) (source : σ)
    (memo : χ) :
    ∃ a : Account σ χ, a.Justified 0 (.start (some budget), source) ∧
      ∀ warns (d : Desk σ (Sighted χ)), d.source = source → d.memo.2 = memo →
        run (looking act) (.start budget warns, d) =
          a.result a.records.length (a.onto warns 0 d) := by
  have hfuel : (Meter.start (some budget)).left.toNat < budget.toNat + 1 := Nat.lt_succ_self _
  obtain ⟨a, hjustified, hgoes⟩ : ∃ a : Account σ χ,
      a.Justified 0 (.start (some budget), source) ∧ GoesTo _ 0 _ memo a :=
    deliver_accounted act hfuel
  have hdeliver (warns : Bool) (d : Desk σ (Sighted χ)) (hd : d.source = source)
      (hmemo : d.memo.2 = memo) :
      Reading.deliver link (looking act) (budget.toNat + 1) .fresh (.start budget warns, d) =
        a.result () (a.onto warns 0 d) :=
    (Reading.deliver_fresh rfl).trans (hgoes warns d hd hmemo)
  cases hfault : a.fault? with
  | none =>
    refine ⟨a, hjustified, fun warns d hd hmemo => ?_⟩
    have h := hdeliver warns d hd hmemo
    simp only [Account.result, hfault] at h ⊢
    rw [← Nat.zero_add a.records.length]
    exact Reading.run_of_ok h
  | some f =>
    -- a run that fails is failed, whatever the reading came to when it did
    refine ⟨{ a with phase := .failed }, ⟨hjustified.reads, hjustified.debug⟩,
      fun warns d hd hmemo => ?_⟩
    have h := hdeliver warns d hd hmemo
    simp only [Account.result, hfault] at h ⊢
    exact Reading.run_of_error h

/-- A run warns, in order, of the records that it hands over and that declare another length than
the four or twenty bytes of their content, and of no others, if it is to warn at all. Each shape is
handed over when the warning about it is in the log. What is handed over, the value or fault, the
phase, the count, the meter, the source and the lines that are no warnings are the same for a run
that warns and one that does not. -/
theorem warnings_exact (act : Shape → χ → Except Fault Bool × χ) (budget : Int) (source : σ)
    (memo : χ) :
    ∃ a : Account σ χ, a.Justified 0 (.start (some budget), source) ∧
      (∀ (i : Nat) (r : Record), a.records[i]? = some r → ∃ c : Content,
        r.shape = c.shape (some i) (some r.header.number) ∧ r.decoded = c.size) ∧
      ∀ warns iterators log, ∃ s : Reading × Desk σ (Sighted χ),
        run (looking act) (.start budget warns, ⟨source, iterators, log, ([], memo)⟩) =
          a.result a.records.length s ∧
        s = a.onto warns 0 ⟨source, iterators, log, ([], memo)⟩ ∧
        warningsIn s.2.log = (warningsOf warns a.records).reverse ++ warningsIn log ∧
        s.2.memo.1.map Prod.fst = a.records.map Record.shape := by
  obtain ⟨a, hjustified, hrun⟩ := run_accounted act budget source memo
  obtain ⟨last, hrow, -⟩ := hjustified.reads
  refine ⟨a, hjustified, fun i r hr => ?_, fun warns iterators log => ?_⟩
  · rw [← Nat.zero_add i]
    exact hrow.content hr
  · refine ⟨_, hrun warns ⟨source, iterators, log, ([], memo)⟩ rfl rfl, rfl, ?_, ?_⟩
    · exact hjustified.warnings warns 0 _
    · exact shapes_sights warns log a.records

end Desk
end Shapefile
