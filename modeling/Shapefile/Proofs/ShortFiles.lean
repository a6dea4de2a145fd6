import Shapefile.Proofs.HeaderBytes
import Shapefile.Proofs.Iteration
import Shapefile.Proofs.Truncation

/-! # Files that are cut short

A reading of the first bytes of a byte string delivers what the reading of all of it delivers that
lies within them, and fails if there is more to read (`Desk.truncation_noticed`). So a file that is
well-formed does not end quietly where it is cut before its declared end. -/

namespace Shapefile

open Desk (outcome endState run)

variable {σ χ : Type}

/-! ## The same run without the marks -/

namespace Desk

/-- The same desk without the marks. -/
def untracked (d : Desk (Tracked σ) χ) : Desk σ χ := ⟨d.source.source, d.iterators, d.log, d.memo⟩

variable [Source σ]

theorem link_untracked :
    Link.Simulates (fun (d : Desk (Tracked σ) χ) d' => d' = untracked d) link link where
  feed := by
    rintro n d _ rfl
    simp only [link, feed, Source.read, Tracked.read, untracked]
    cases Source.read n d.source.source with
    | ok data source => exact .ok rfl
    | error f source => exact .error rfl
  log entry _ := by
    rintro d _ rfl
    rfl

/-- A run at a desk that is made of another one ends as the run there, if links and consumers
agree. -/
theorem run_mapped {τ ψ : Type} [Source τ] {f : Desk σ χ → Desk τ ψ}
    (L : Link.Simulates (fun d d' => d' = f d) link link) {consumer : Consumer σ χ}
    {consumer' : Consumer τ ψ}
    (C : ∀ shape rd d, consumer' shape (rd, f d) =
      mapState (fun s => (s.1, f s.2)) (consumer shape (rd, d)))
    (rd : Reading) (d : Desk σ χ) :
    run consumer' (rd, f d) = mapState (fun s => (s.1, f s.2)) (run consumer (rd, d)) := by
  have hconsumer (shape : Shape) :
      Simulates (Beside fun d d' => d' = f d) (consumer shape) (consumer' shape) := by
    rintro ⟨rd, d⟩ ⟨_, _⟩ ⟨rfl, rfl⟩
    rw [C shape rd d]
    cases consumer shape (rd, d) with
    | ok more s => exact .ok ⟨rfl, rfl⟩
    | error f s => exact .error ⟨rfl, rfl⟩
  have hrun := Reading.run_simulates L hconsumer (s := (rd, d)) (t := (rd, f d)) ⟨rfl, rfl⟩
  exact eq_mapState _ (hrun.mono fun s t h => Prod.ext h.1.symm h.2)

end Desk

/-! ## What comes of the cut -/

/-- The same value, or faults of the same kind. -/
inductive SameOutcome {α : Type} : Except Fault α → Except Fault α → Prop where
  | ok (a : α) : SameOutcome (.ok a) (.ok a)
  | error {f f' : Fault} (kind : f.SameKind f') : SameOutcome (.error f) (.error f')

namespace Desk

/-- How a run over a byte string ends that is to deliver every shape. -/
abbrev Ending := EStateM.Result Fault (Reading × Desk Plain Ends) Nat

/-- Delivers the shapes of the records that begin a byte string, and notes where they end. -/
def delivering (budget : Int) (warns : Bool) (bytes : Bytes) : Ending :=
  run marking (.start budget warns, .init ⟨bytes⟩ [])

/-- The places where the fields end that are read of a byte string, and where the first begins. -/
def fieldEnds (budget : Int) (warns : Bool) (bytes : Bytes) : List Nat :=
  (endState (run marking (.start budget warns, trackedDesk bytes))).2.source.marks

/-- Both runs deliver the same and end in the same state, in the same way. -/
structure SameEnd (full cut : Ending) : Prop where
  outcome : SameOutcome (outcome full) (outcome cut)
  reading : (endState cut).1 = (endState full).1
  memo : (endState cut).2.memo = (endState full).2.memo
  log : (endState cut).2.log = (endState full).2.log

/-- The second run has run short of the first `t` bytes: it delivers what ends within them, and
fails at the last of the `places` that is not beyond them. -/
structure RunsShort (t : Nat) (places : List Nat) (full cut : Ending) : Prop where
  memo : (endState cut).2.memo = (endState full).2.memo.filter fun entry => decide (entry.2 ≤ t)
  outcome : ∃ n got, outcome cut = .error (.wrongCount n got)
  phase : (endState cut).1.phase = .failed
  within : (endState cut).1.meter.consumed ≤ t
  boundary : (endState cut).1.meter.consumed ∈ places
  greatest : ∀ place ∈ places, place ≤ t → place ≤ (endState cut).1.meter.consumed

section
variable (budget : Int) (warns : Bool) (bytes : Bytes)

theorem delivering_eq :
    delivering budget warns bytes = mapState (fun s => (s.1, untracked s.2))
      (run marking (.start budget warns, trackedDesk bytes)) :=
  run_mapped link_untracked (fun _ _ _ => rfl) (.start budget warns) (trackedDesk bytes)

/-- A run over the first bytes either ends as the run over all of them, or that goes on beyond them
and the other one runs short. -/
theorem delivering_take (t : Nat) :
    let full := delivering budget warns bytes
    let cut := delivering budget warns (bytes.take t)
    (endState full).1.meter.consumed ≤ t ∧ SameEnd full cut ∨
      t < (endState full).1.meter.consumed ∧
        RunsShort t (fieldEnds budget warns bytes) full cut := by
  have hcut := run_cut budget warns bytes t
  simp only [delivering_eq, fieldEnds]
  generalize run marking (.start budget warns, trackedDesk bytes) = full at hcut ⊢
  generalize run marking (.start budget warns, trackedDesk (bytes.take t)) = cut at hcut ⊢
  cases hcut with
  | @ok a s s' step =>
    obtain rfl := step.cases
    exact .inl ⟨step.desk.within, .ok a, rfl, rfl, rfl⟩
  | @error f f' s s' kind step =>
    obtain rfl := step.cases
    exact .inl ⟨step.desk.within, .error kind, rfl, rfl, rfl⟩
  | @short full n got s' ahead =>
    obtain ⟨⟨hbeyond, -, hwithin, hboundary, hgreatest⟩, hfailed, hkept⟩ := ahead
    refine .inr ⟨?_, ?_, ⟨n, got, rfl⟩, hfailed, hwithin, hboundary, hgreatest⟩
    · rw [endState_mapState]
      exact hbeyond
    · rw [endState_mapState, endState_mapState]
      exact hkept

end
end Desk

/-! ## Whole files -/

open StoredRecord

/-- Reads a file from its first byte: the header, and then every shape. -/
def readFile (warns : Bool) (file : Bytes) : Except Fault Nat :=
  match Header.read Plain.read ⟨file⟩ with
  | .ok h rest => outcome (run Desk.marking (.start h.contentLength warns, .init rest []))
  | .error f _ => .error f

/-- A file as the format wants it: a valid header, and records that declare the length of their
content and fill what the header promises. Whatever comes after them is no part of it. -/
structure WellFormed (h : Header) (rs : List StoredRecord) (file : Bytes) : Prop where
  storable : h.IsStorable
  valid : h.defect? = none
  exact : ∀ r ∈ rs, r.IsExact
  length : h.fileLength = Header.size + sizeAll rs
  bytes : ∃ reserved trailing, reserved.length = 20 ∧
    file = h.encode reserved ++ (encodeAll rs ++ trailing)

namespace Header

theorem length_encode_header (h : Header) {reserved : Bytes} (hreserved : reserved.length = 20) :
    (h.encode reserved).length = 100 := by
  simp [encode, encodeRange, Meter.encodeHalves, hreserved]

/-- The fields of a header run short of bytes that are fewer than a hundred. -/
theorem readFields_short {bytes : Bytes} (h : bytes.length < 100) :
    ∃ n got p, readFields Plain.read (.start none, ⟨bytes⟩) = .error (.wrongCount n got) p := by
  obtain ⟨n, got, hlack⟩ := Meter.exists_lack widths h
  obtain ⟨m, hshort⟩ := readFields_parses.short (.start none) hlack
  exact ⟨n, got, _, hshort⟩

end Header

namespace WellFormed

variable {h : Header} {rs : List StoredRecord} {file : Bytes}

theorem contentLength (H : WellFormed h rs file) : h.contentLength = sizeAll rs := by
  have hlength := H.length
  rw [Header.contentLength]
  omega

/-- The records of a well-formed file are read to the declared end. -/
theorem delivering_consumed (H : WellFormed h rs file) (warns : Bool) (trailing : Bytes) :
    outcome (Desk.delivering h.contentLength warns (encodeAll rs ++ trailing)) = .ok rs.length ∧
      (endState (Desk.delivering h.contentLength warns
        (encodeAll rs ++ trailing))).1.meter.consumed = sizeAll rs := by
  have hcontent := Int.le_of_eq H.contentLength
  have hframed := framed_of_exact H.exact (Int.le_of_eq H.contentLength.symm)
  have hmapped : run (Desk.watcher fun _ memo => (true, memo))
      (.start h.contentLength warns, .init (⟨encodeAll rs ++ trailing⟩ : Plain) ()) =
      mapState (fun s => (s.1, Desk.refitted [] () s.2))
        (Desk.delivering h.contentLength warns (encodeAll rs ++ trailing)) :=
    Desk.run_mapped (Desk.link_refitted [] ()) (fun _ _ _ => rfl) (.start h.contentLength warns)
      (.init (⟨encodeAll rs ++ trailing⟩ : Plain) [])
  have hrun := (Desk.run_used_up hframed rfl (wantsMore_of_true (fun _ _ => rfl) _ _)
    hcontent).symm.trans hmapped
  refine ⟨?_, ?_⟩
  · have houtcome := congrArg outcome hrun
    rw [outcome_mapState] at houtcome
    exact houtcome.symm
  · have hend := congrArg (fun r => (endState r).1.meter.consumed) hrun
    rw [endState_mapState] at hend
    exact hend.symm

/-- A well-formed file is read without a fault. -/
theorem readFile_eq (H : WellFormed h rs file) (warns : Bool) :
    readFile warns file = .ok rs.length := by
  obtain ⟨reserved, trailing, hreserved, rfl⟩ := H.bytes
  rw [readFile, Header.read_append _ H.storable H.valid hreserved]
  exact (H.delivering_consumed warns trailing).1

/-- A well-formed file that is cut before its declared end is found to be too short. -/
theorem readFile_take (H : WellFormed h rs file) (warns : Bool) {t : Nat}
    (ht : (t : Int) < h.fileLength) :
    ∃ n got, readFile warns (file.take t) = .error (.wrongCount n got) := by
  obtain ⟨reserved, trailing, hreserved, rfl⟩ := H.bytes
  have hlength := h.length_encode_header hreserved
  by_cases hheader : t < 100
  · have htaken : ((h.encode reserved ++ (encodeAll rs ++ trailing)).take t).length < 100 := by
      rw [List.length_take]
      omega
    obtain ⟨n, got, p, hshort⟩ := Header.readFields_short htaken
    exact ⟨n, got, by rw [readFile, Header.read, hshort]⟩
  · have htake : (h.encode reserved ++ (encodeAll rs ++ trailing)).take t =
        h.encode reserved ++ (encodeAll rs ++ trailing).take (t - 100) := by
      rw [List.take_append, hlength, List.take_of_length_le (by omega)]
    have hbeyond : t - 100 < sizeAll rs := by
      rw [H.length, Header.size] at ht
      omega
    rw [htake, readFile, Header.read_append _ H.storable H.valid hreserved]
    rcases Desk.delivering_take h.contentLength warns (encodeAll rs ++ trailing) (t - 100) with
      ⟨hwithin, -⟩ | ⟨-, hshort⟩
    · rw [(H.delivering_consumed warns trailing).2] at hwithin
      exact absurd hbeyond (Nat.not_lt_of_le hwithin)
    · exact hshort.outcome

end WellFormed

theorem sampleRecords_wellFormed :
    WellFormed sampleHeader sampleRecords
      (sampleHeader.encode (List.replicate 20 7) ++ (encodeAll sampleRecords ++ [9])) := by
  exact ⟨sampleHeader_storable, by decide, sampleRecords_exact, rfl, _, _, rfl, rfl⟩

/-- A run over the first `t` bytes ends as the run over all of them, but for the byte count of a
fault, if that needs no more than `t` bytes. If it does, the run over the first bytes delivers the
shapes of the records that end within them, and fails where the last field ends that does. -/
theorem Desk.truncation_noticed (h : Header) (warns : Bool) (bytes : Bytes) (t : Nat) :
    let full := delivering h.contentLength warns bytes
    let cut := delivering h.contentLength warns (bytes.take t)
    ((endState full).1.meter.consumed ≤ t → SameEnd full cut) ∧
      (t < (endState full).1.meter.consumed →
        RunsShort t (fieldEnds h.contentLength warns bytes) full cut) ∧
      ∀ (header : Header) (rs : List StoredRecord) (file : Bytes), WellFormed header rs file →
        readFile warns file = .ok rs.length ∧
          ((t : Int) < header.fileLength →
            ∃ n got, readFile warns (file.take t) = .error (.wrongCount n got)) := by
  refine ⟨fun hwithin => ?_, fun hbeyond => ?_, fun _ _ _ H =>
    ⟨H.readFile_eq warns, fun ht => H.readFile_take warns ht⟩⟩
  · rcases delivering_take h.contentLength warns bytes t with ⟨-, hsame⟩ | ⟨hbeyond, -⟩
    · exact hsame
    · exact absurd hbeyond (Nat.not_lt_of_le hwithin)
  · rcases delivering_take h.contentLength warns bytes t with ⟨hwithin, -⟩ | ⟨-, hshort⟩
    · exact absurd hbeyond (Nat.not_lt_of_le hwithin)
    · exact hshort

/-- The three records take 52 bytes. The second one is cut. -/
theorem Desk.truncation_noticed_sample :
    RunsShort 20 (fieldEnds sampleHeader.contentLength true (encodeAll sampleRecords ++ [9]))
        (delivering sampleHeader.contentLength true (encodeAll sampleRecords ++ [9]))
        (delivering sampleHeader.contentLength true ((encodeAll sampleRecords ++ [9]).take 20)) ∧
      SameEnd (delivering sampleHeader.contentLength true (encodeAll sampleRecords ++ [9]))
        (delivering sampleHeader.contentLength true ((encodeAll sampleRecords ++ [9]).take 52)) ∧
      ∃ n got, readFile true
        ((sampleHeader.encode (List.replicate 20 7) ++ (encodeAll sampleRecords ++ [9])).take 120) =
          .error (.wrongCount n got) := by
  have hconsumed := (sampleRecords_wellFormed.delivering_consumed true [9]).2
  refine ⟨?_, ?_, ?_⟩
  · refine (truncation_noticed sampleHeader true (encodeAll sampleRecords ++ [9]) 20).2.1 ?_
    rw [hconsumed]
    decide
  · refine (truncation_noticed sampleHeader true (encodeAll sampleRecords ++ [9]) 52).1 ?_
    rw [hconsumed]
    decide
  · exact ((truncation_noticed sampleHeader true [] 120).2.2 _ _ _ sampleRecords_wellFormed).2
      (by decide)

end Shapefile
