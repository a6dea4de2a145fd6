import Shapefile.Proofs.Client
import Shapefile.Proofs.Fields
import Shapefile.Proofs.Fieldwise

/-! # Exchanges

All that a reading has to do with its surroundings is that it asks streams for bytes and hands over
shapes. A computation is fail-stop if it asks for the bytes of single fields only, and if an answer
of any other bytes than those is the last exchange, with its fault as the outcome. What such a
computation makes of the answers before it makes of plain byte strings too that hold nothing else
(`FailStops`), and byte strings that are cut off at any request show what came before it
(`Replay.InOrder`). This goes through from fields to headers and records (`Fieldwise.failStops`). -/

namespace Shapefile

open Desk (outcome endState)

/-- What passes between a reading and its surroundings. -/
inductive Exchange (κ : Type) where
  /-- A stream is asked for `n` bytes. -/
  | answered (stream : κ) (n : Int) (answer : Except Fault Bytes)
  | handed (shape : Shape)

namespace Exchange

variable {κ : Type}

/-- What an answer leads to that is not of exactly the bytes that were asked for. -/
def fault? : Exchange κ → Option Fault
  | answered _ n (.ok data) =>
    if (data.length : Int) = n then none else some (.wrongCount n data.length)
  | answered _ n (.error f) => some (if f.isSystem then .readFailed n f else f)
  | handed _ => none

/-- No stream is asked for anything but the bytes of one field. -/
def IsField : Exchange κ → Prop
  | answered _ n _ => n = 2 ∨ n = 4 ∨ n = 8
  | handed _ => True

variable [DecidableEq κ]

/-- The bytes of a stream, if they are exactly those that it was asked for. -/
def bytes (stream : κ) : Exchange κ → Bytes
  | answered asked n (.ok data) => if asked = stream ∧ (data.length : Int) = n then data else []
  | _ => []

theorem bytes_of_length {n : Nat} {data : Bytes} (h : data.length = n) (stream : κ) :
    bytes stream (.answered stream n (.ok data)) = data := if_pos ⟨rfl, congrArg _ h⟩

theorem bytes_of_ne {asked stream : κ} (h : asked ≠ stream) (n : Int)
    (answer : Except Fault Bytes) : bytes stream (.answered asked n answer) = [] := by
  cases answer with
  | ok data => exact if_neg fun hasked => h hasked.1
  | error f => rfl

theorem bytes_of_fault {x : Exchange κ} {f : Fault} (h : x.fault? = some f) (stream : κ) :
    x.bytes stream = [] := by
  cases x with
  | handed shape => rfl
  | answered asked n answer =>
    cases answer with
    | error f => rfl
    | ok data =>
      by_cases hlength : (data.length : Int) = n
      · rw [fault?, if_pos hlength] at h
        cases h
      · rw [bytes, if_neg fun hexact => hlength hexact.2]

end Exchange

/-- The bytes of a stream in the answers of exactly the bytes that were asked for. -/
def exactBytes {κ : Type} [DecidableEq κ] (es : List (Exchange κ)) (stream : κ) : Bytes :=
  es.flatMap (Exchange.bytes stream)

/-- A computation that has had the exchanges `es` and the outcome `o` is fail-stop, and `o'` comes
of the same where streams are plain byte strings of the exact answers. -/
structure FailStop {κ α : Type} (es : List (Exchange κ)) (o o' : Except Fault α) : Prop where
  fields : ∀ x ∈ es, x.IsField
  /-- An answer that is not exact ends the computation, with its fault. -/
  stops : ∀ before x after f, es = before ++ x :: after → x.fault? = some f →
    after = [] ∧ o = .error f
  exact : (∀ x ∈ es, x.fault? = none) → o' = o
  /-- Of an answer that is not exact nothing is used. -/
  inexact : ∀ stream n answer, .answered stream n answer ∈ es →
    Exchange.fault? (.answered stream n answer) ≠ none → o' = .error (.wrongCount n 0)

/-! ## Partners -/

/-- The streams and the consumer that a reading deals with, and what neither of them notices. -/
structure Partners (κ ε : Type) where
  feed : κ → Feed ε
  consumer : Shape → EStateM Fault ε Bool
  /-- Neither a stream nor the consumer has noticed anything. -/
  Unnoticed : ε → ε → Prop

/-- These exchanges take place, one after the other. -/
inductive Partners.Hears {κ ε : Type} (S : Partners κ ε) :
    ε → List (Exchange κ) → ε → Prop where
  | nothing (e : ε) : Hears S e [] e
  | unnoticed {e e' : ε} (h : S.Unnoticed e e') : Hears S e [] e'
  | answered (stream : κ) (n : Int) (e : ε) :
    Hears S e [.answered stream n (outcome (S.feed stream n e))] (endState (S.feed stream n e))
  | handed (shape : Shape) (e : ε) : Hears S e [.handed shape] (endState (S.consumer shape e))
  | append {e e' e'' : ε} {es es' : List (Exchange κ)} (first : Hears S e es e')
      (rest : Hears S e' es' e'') : Hears S e (es ++ es') e''

namespace Partners.Hears

variable {κ ε : Type} {S : Partners κ ε} {e e' e'' : ε} {es : List (Exchange κ)}

theorem before (h : S.Unnoticed e e') (H : S.Hears e' es e'') : S.Hears e es e'' :=
  .append (.unnoticed h) H

theorem after (H : S.Hears e es e') (h : S.Unnoticed e' e'') : S.Hears e es e'' := by
  rw [← List.append_nil es]
  exact .append H (.unnoticed h)

end Partners.Hears

/-! ## Streams and consumers that keep a record -/

/-- A request for bytes, and its answer. -/
abbrev Request := Int × Except Fault Bytes

/-- A stream that answers as it likes, by all that it was asked and answered before. -/
structure Adaptive where
  answer : List Request → Int → Except Fault Bytes
  /-- The requests so far, in order. -/
  asked : List Request

namespace Adaptive

def read : Feed Adaptive := fun n s =>
  let answer := s.answer s.asked n
  let s := { s with asked := s.asked ++ [(n, answer)] }
  match answer with
  | .ok data => .ok data s
  | .error f => .error f s

instance : Source Adaptive := ⟨read⟩

theorem asked_read (n : Int) (s : Adaptive) :
    (endState (Source.read n s)).asked = s.asked ++ [(n, outcome (Source.read n s))] := by
  simp only [Source.read, read]
  cases s.answer s.asked n <;> rfl

end Adaptive

/-- What a consumer does that keeps a list of the shapes too. -/
def keeping {χ : Type} (act : Shape → χ → Except Fault Bool × χ) (shape : Shape) :
    List Shape × χ → Except Fault Bool × (List Shape × χ)
  | (shapes, memo) =>
    let (answer, memo) := act shape memo
    (answer, (shapes ++ [shape], memo))

section
variable {κ ε ρ : Type}

theorem map_append_nil (record : Option (List ρ)) : record.map (· ++ []) = record := by
  simp only [List.append_nil, Option.map_id_fun', id]

/-- Where a record is kept of some of the exchanges, there are no others of these. -/
theorem Partners.Hears.recorded {S : Partners κ ε} {pick : Exchange κ → Option ρ}
    (record : ε → Option (List ρ))
    (hfeed : ∀ stream n e, record (endState (S.feed stream n e)) =
      (record e).map
        (· ++ [Exchange.answered stream n (outcome (S.feed stream n e))].filterMap pick))
    (hconsumer : ∀ shape e, record (endState (S.consumer shape e)) =
      (record e).map (· ++ [Exchange.handed shape].filterMap pick))
    (hunnoticed : ∀ {e e'}, S.Unnoticed e e' → record e' = record e) {e e' : ε}
    {es : List (Exchange κ)} (H : S.Hears e es e') :
    record e' = (record e).map (· ++ es.filterMap pick) := by
  induction H with
  | nothing e => exact (map_append_nil _).symm
  | unnoticed h => exact (hunnoticed h).trans (map_append_nil _).symm
  | answered stream n e => exact hfeed stream n e
  | handed shape e => exact hconsumer shape e
  | append _ _ ih ih' =>
    simp only [ih', ih, Option.map_map, Function.comp_def, List.filterMap_append,
      List.append_assoc]

def Exchange.shape? : Exchange κ → Option Shape
  | answered .. => none
  | handed shape => some shape

/-- The shapes that were handed over. -/
def handedShapes (es : List (Exchange κ)) : List Shape := es.filterMap Exchange.shape?

theorem handedShapes_append (es es' : List (Exchange κ)) :
    handedShapes (es ++ es') = handedShapes es ++ handedShapes es' := List.filterMap_append

variable [DecidableEq κ]

def Exchange.request? (stream : κ) : Exchange κ → Option Request
  | answered asked n answer => if asked = stream then some (n, answer) else none
  | handed _ => none

/-- The requests to a stream. -/
def requests (es : List (Exchange κ)) (stream : κ) : List Request :=
  es.filterMap (Exchange.request? stream)

theorem requests_self (stream : κ) (n : Int) (answer : Except Fault Bytes) :
    requests [.answered stream n answer] stream = [(n, answer)] := by
  simp only [requests, List.filterMap_cons, Exchange.request?, if_true, List.filterMap_nil]

theorem requests_ne {asked stream : κ} (h : asked ≠ stream) (n : Int)
    (answer : Except Fault Bytes) : requests [.answered asked n answer] stream = [] := by
  simp only [requests, List.filterMap_cons, Exchange.request?, if_neg h, List.filterMap_nil]

end

/-! ## Replays -/

/-- Two kinds of states in which the same can be computed: those in which streams answer as they
like, and those in which they are plain byte strings, the tapes. -/
structure Replay (κ τ τ' : Type) where
  Hears : τ → List (Exchange κ) → τ → Prop
  /-- The states differ in nothing but the streams. -/
  Same : τ → τ' → Prop
  /-- The same has been made of the streams. -/
  Decoded : τ → τ' → Prop
  tape : τ' → κ → Bytes
  /-- The shapes that were handed over, where a record of them is kept. -/
  shapes : τ → Option (List Shape)
  shapes' : τ' → Option (List Shape)
  nothing : ∀ s, Hears s [] s
  append : ∀ {s t u es es'}, Hears s es t → Hears t es' u → Hears s (es ++ es') u
  decoded : ∀ {s s'}, Same s s' → Decoded s s'
  handed : ∀ {s t es}, Hears s es t → shapes t = (shapes s).map (· ++ handedShapes es)
  recorded : ∀ {s s'}, Same s s' → shapes' s' = shapes s

section
variable {κ τ τ' α β : Type}

theorem Alike.eq_ok {R : τ → τ' → Prop} {a : α} {s : τ} {r : EStateM.Result Fault τ' α}
    (h : Alike R (.ok a s) r) : ∃ s', r = .ok a s' ∧ R s s' := by
  cases h with
  | ok h => exact ⟨_, rfl, h⟩

theorem Alike.eq_error {R : τ → τ' → Prop} {f : Fault} {s : τ} {r : EStateM.Result Fault τ' α}
    (h : Alike R (.error f s : EStateM.Result Fault τ α) r) : ∃ s', r = .error f s' ∧ R s s' := by
  cases h with
  | error h => exact ⟨_, rfl, h⟩

variable [DecidableEq κ]

/-- How a computation ends that started in `s` and has had the exchanges `es`. With tapes that hold
the exact answers, `y` ends alike or falls short where an answer was not exact. -/
inductive Ends (K : Replay κ τ τ') (s : τ) (es : List (Exchange κ))
    (r : EStateM.Result Fault τ α) (y : EStateM Fault τ' α) : Prop where
  | whole (exact : ∀ x ∈ es, x.fault? = none)
      (replay : ∀ {s' : τ'} {rest : κ → Bytes}, K.Same s s' →
        (K.tape s' = fun stream => exactBytes es stream ++ rest stream) →
          Alike (fun t t' => K.Same t t' ∧ K.tape t' = rest) r (y s'))
  | broken {before : List (Exchange κ)} {stream : κ} {n : Int} {answer : Except Fault Bytes}
      {f : Fault} {t : τ} (split : es = before ++ [.answered stream n answer])
      (exact : ∀ x ∈ before, x.fault? = none)
      (fault : Exchange.fault? (.answered stream n answer) = some f) (surfaces : r = .error f t)
      (replay : ∀ {s' : τ'}, K.Same s s' → K.tape s' = exactBytes es →
        ∃ t', y s' = .error (.wrongCount n 0) t' ∧ K.Decoded t t')

/-- The exchanges of a computation that starts in `s` take place in this order. Where the tapes are
cut off at a request, the computation with tapes comes to this request, and no further: the same
shapes were handed over before, and of each tape is left what lies beyond the answers before. -/
def Replay.InOrder (K : Replay κ τ τ') (es : List (Exchange κ)) (s : τ)
    (y : EStateM Fault τ' α) : Prop :=
  ∀ before stream n answer after, es = before ++ .answered stream n answer :: after →
    ∀ s' rest, K.Same s s' → rest stream = [] →
      (K.tape s' = fun other => exactBytes before other ++ rest other) →
        ∃ t', y s' = .error (.wrongCount n 0) t' ∧ K.tape t' = rest ∧
          K.shapes' t' = (K.shapes s).map (· ++ handedShapes before)

/-- What comes of a computation that starts in `s` is that of a fail-stop one, of which `y` is the
same with tapes. -/
def StopsAt (K : Replay κ τ τ') (s : τ) (r : EStateM.Result Fault τ α)
    (y : EStateM Fault τ' α) : Prop :=
  ∃ es, K.Hears s es (endState r) ∧ (∀ x ∈ es, x.IsField) ∧ Ends K s es r y ∧ K.InOrder es s y

def FailStops (K : Replay κ τ τ') (x : EStateM Fault τ α) (y : EStateM Fault τ' α) : Prop :=
  ∀ s, StopsAt K s (x s) y

variable {K : Replay κ τ τ'} {s : τ}

theorem exactBytes_append (es es' : List (Exchange κ)) (stream : κ) :
    exactBytes (es ++ es') stream = exactBytes es stream ++ exactBytes es' stream :=
  List.flatMap_append

theorem exactBytes_of_handed {es : List (Exchange κ)} (h : ∀ x ∈ es, ∃ shape, x = .handed shape)
    (stream : κ) : exactBytes es stream = [] := by
  refine List.flatMap_eq_nil_iff.mpr fun x hx => ?_
  obtain ⟨shape, rfl⟩ := h x hx
  rfl

/-- Two computations that are in order are so one after the other, if the first is whole. -/
theorem Replay.InOrder.bind {es es' : List (Exchange κ)} {t : τ} {a : α} {y : EStateM Fault τ' α}
    {g : α → EStateM Fault τ' β} (hy : K.InOrder es s y) (heard : K.Hears s es t)
    (replay : ∀ {s' rest}, K.Same s s' →
      (K.tape s' = fun stream => exactBytes es stream ++ rest stream) →
        ∃ t', y s' = .ok a t' ∧ K.Same t t' ∧ K.tape t' = rest)
    (hg : K.InOrder es' t (g a)) : K.InOrder (es ++ es') s (y >>= g) := by
  intro before stream n answer after hes s' rest hsame hrest htape
  have hsecond (before' : List (Exchange κ)) (hbefore : before = es ++ before')
      (hes' : es' = before' ++ .answered stream n answer :: after) :
      ∃ u', (y >>= g) s' = .error (.wrongCount n 0) u' ∧ K.tape u' = rest ∧
        K.shapes' u' = (K.shapes s).map (· ++ handedShapes before) := by
    simp only [hbefore, exactBytes_append, List.append_assoc] at htape
    obtain ⟨t', hyt, hsame', htape'⟩ := replay hsame htape
    obtain ⟨u', hgu, hleft, hshapes⟩ :=
      hg before' stream n answer after hes' t' rest hsame' hrest htape'
    refine ⟨u', (bind_of_ok hyt).trans hgu, hleft, hshapes.trans ?_⟩
    simp only [K.handed heard, Option.map_map, Function.comp_def, hbefore, handedShapes_append,
      List.append_assoc]
  rcases List.append_eq_append_iff.mp hes with ⟨before', hbefore, hes'⟩ | ⟨mid, hsplit, hmid⟩
  · exact hsecond before' hbefore hes'
  · cases mid with
    | nil =>
      rw [List.append_nil] at hsplit
      exact hsecond [] (hsplit ▸ (List.append_nil _).symm) hmid.symm
    | cons x mid =>
      cases hmid
      obtain ⟨t', hyt, hleft, hshapes⟩ :=
        hy before stream n answer mid hsplit s' rest hsame hrest htape
      exact ⟨t', bind_of_error hyt, hleft, hshapes⟩

namespace StopsAt

variable {r : EStateM.Result Fault τ α} {y y' : EStateM Fault τ' α}

/-- Nothing was asked for. -/
theorem of_alike {es : List (Exchange κ)} (heard : K.Hears s es (endState r))
    (silent : ∀ x ∈ es, ∃ shape, x = .handed shape)
    (alike : ∀ {s'}, K.Same s s' →
      Alike (fun t t' => K.Same t t' ∧ K.tape t' = K.tape s') r (y s')) :
    StopsAt K s r y := by
  refine ⟨es, heard, fun x hx => ?_, .whole (fun x hx => ?_) fun {s' rest} hsame htape => ?_,
    fun before stream n answer after hes => ?_⟩
  · obtain ⟨shape, rfl⟩ := silent x hx
    trivial
  · obtain ⟨shape, rfl⟩ := silent x hx
    rfl
  · refine (alike hsame).mono fun t t' h => ⟨h.1, h.2.trans (htape.trans (funext fun stream => ?_))⟩
    rw [exactBytes_of_handed silent, List.nil_append]
  · obtain ⟨shape, hshape⟩ := silent _ (hes ▸ List.mem_append_right _ List.mem_cons_self)
    cases hshape

/-- Nothing was asked for or handed over. -/
theorem quiet (heard : K.Hears s [] (endState r))
    (alike : ∀ {s'}, K.Same s s' →
      Alike (fun t t' => K.Same t t' ∧ K.tape t' = K.tape s') r (y s')) :
    StopsAt K s r y := of_alike heard (List.forall_mem_nil _) alike

theorem congr (H : StopsAt K s r y) (h : ∀ {s'}, K.Same s s' → y' s' = y s') :
    StopsAt K s r y' := by
  obtain ⟨es, heard, fields, ends, order⟩ := H
  refine ⟨es, heard, fields, ?_, ?_⟩
  · cases ends with
    | whole exact replay => exact .whole exact fun hsame htape => h hsame ▸ replay hsame htape
    | broken split exact fault surfaces replay =>
      exact .broken split exact fault surfaces fun hsame htape => h hsame ▸ replay hsame htape
  · intro before stream n answer after hes s' rest hsame
    rw [h hsame]
    exact order before stream n answer after hes s' rest hsame

theorem bind {x : EStateM Fault τ α} {f : α → EStateM Fault τ β} {g : α → EStateM Fault τ' β}
    (hx : StopsAt K s (x s) y) (hf : ∀ {a t}, x s = .ok a t → StopsAt K t (f a t) (g a)) :
    StopsAt K s ((x >>= f) s) (y >>= g) := by
  obtain ⟨es, heard, fields, ends, order⟩ := hx
  cases hxs : x s with
  | error e t =>
    rw [hxs] at heard ends
    rw [bind_of_error hxs]
    refine ⟨es, heard, fields, ?_, ?_⟩
    · cases ends with
      | whole exact replay =>
        refine .whole exact fun hsame htape => ?_
        obtain ⟨t', hys, h⟩ := (replay hsame htape).eq_error
        rw [bind_of_error hys]
        exact .error h
      | broken split exact fault surfaces replay =>
        cases surfaces
        refine .broken split exact fault rfl fun hsame htape => ?_
        obtain ⟨t', hys, h⟩ := replay hsame htape
        exact ⟨t', bind_of_error hys, h⟩
    · intro before stream n answer after hes s' rest hsame hrest htape
      obtain ⟨t', hys, h⟩ := order before stream n answer after hes s' rest hsame hrest htape
      exact ⟨t', bind_of_error hys, h⟩
  | ok a t =>
    rw [hxs] at heard ends
    rw [bind_of_ok hxs]
    obtain ⟨es', heard', fields', ends', order'⟩ := hf hxs
    cases ends with
    | broken split exact fault surfaces => cases surfaces
    | whole exact replay =>
      refine ⟨es ++ es', K.append heard heard', List.forall_mem_append.mpr ⟨fields, fields'⟩, ?_,
        order.bind heard (fun hsame htape => (replay hsame htape).eq_ok) order'⟩
      -- The rest finds the tapes at what is left for it.
      have hrest {s' : τ'} (rest : κ → Bytes) (hsame : K.Same s s')
          (htape : K.tape s' = fun stream => exactBytes (es ++ es') stream ++ rest stream) :
          ∃ t', (y >>= g) s' = g a t' ∧ K.Same t t' ∧
            K.tape t' = fun stream => exactBytes es' stream ++ rest stream := by
        simp only [exactBytes_append, List.append_assoc] at htape
        obtain ⟨t', hys, h⟩ := (replay hsame htape).eq_ok
        exact ⟨t', bind_of_ok hys, h⟩
      cases ends' with
      | whole exact' replay' =>
        refine .whole (List.forall_mem_append.mpr ⟨exact, exact'⟩) fun hsame htape => ?_
        obtain ⟨t', hys, hsame', htape'⟩ := hrest _ hsame htape
        rw [hys]
        exact replay' hsame' htape'
      | @broken before _ _ _ _ _ split exact' fault surfaces replay' =>
        refine .broken (split ▸ (List.append_assoc es before _).symm)
          (List.forall_mem_append.mpr ⟨exact, exact'⟩) fault surfaces fun hsame htape => ?_
        obtain ⟨t', hys, hsame', htape'⟩ := hrest (fun _ => []) hsame
          (htape.trans (funext fun _ => (List.append_nil _).symm))
        obtain ⟨u', hgt, h⟩ := replay' hsame' (htape'.trans (funext fun _ => List.append_nil _))
        exact ⟨u', hys.trans hgt, h⟩

/-- What comes of a computation is carried over to one that consists of it and of what asks for
nothing. -/
theorem wrap {υ υ' : Type} {L : Replay κ υ υ'} {u : υ} {q : EStateM.Result Fault υ β}
    {z : EStateM Fault υ' β} (H : StopsAt K s r y)
    (heard : ∀ {es}, K.Hears s es (endState r) → L.Hears u es (endState q))
    (surfaces : ∀ {f t}, r = .error f t → ∃ v, q = .error f v)
    (shapes : L.shapes u = K.shapes s)
    (replay : ∀ {u'}, L.Same u u' → ∃ s', K.Same s s' ∧ K.tape s' = L.tape u' ∧
      (∀ {rest}, Alike (fun t t' => K.Same t t' ∧ K.tape t' = rest) r (y s') →
        Alike (fun v v' => L.Same v v' ∧ L.tape v' = rest) q (z u')) ∧
      ∀ {f' t'}, y s' = .error f' t' → ∃ v', z u' = .error f' v' ∧ L.tape v' = K.tape t' ∧
        L.shapes' v' = K.shapes' t' ∧
        ∀ {f t}, r = .error f t → K.Decoded t t' → L.Decoded (endState q) v') :
    StopsAt L u q z := by
  obtain ⟨es, hes, fields, ends, order⟩ := H
  refine ⟨es, heard hes, fields, ?_, ?_⟩
  · cases ends with
    | whole exact alike =>
      refine .whole exact fun hsame htape => ?_
      obtain ⟨s', hsame', htape', hwhole, -⟩ := replay hsame
      exact hwhole (alike hsame' (htape'.trans htape))
    | broken split exact fault hr short =>
      obtain ⟨v, rfl⟩ := surfaces hr
      refine .broken split exact fault rfl fun hsame htape => ?_
      obtain ⟨s', hsame', htape', -, hbroken⟩ := replay hsame
      obtain ⟨t', hys, h⟩ := short hsame' (htape'.trans htape)
      obtain ⟨v', hz, -, -, hdecoded⟩ := hbroken hys
      exact ⟨v', hz, hdecoded hr h⟩
  · intro before stream n answer after hes u' rest hsame hrest htape
    obtain ⟨s', hsame', htape', -, hbroken⟩ := replay hsame
    obtain ⟨t', hys, hleft, hshapes⟩ :=
      order before stream n answer after hes s' rest hsame' hrest (htape'.trans htape)
    obtain ⟨v', hz, hleft', hshapes', -⟩ := hbroken hys
    exact ⟨v', hz, hleft'.trans hleft, hshapes'.trans (shapes ▸ hshapes)⟩

end StopsAt

namespace FailStops

theorem pure (a : α) : FailStops K (pure a) (pure a) :=
  fun s => .quiet (K.nothing s) fun hsame => .ok ⟨hsame, rfl⟩

theorem throw (f : Fault) :
    FailStops K (throw f : EStateM Fault τ α) (throw f : EStateM Fault τ' α) :=
  fun s => .quiet (K.nothing s) fun hsame => .error ⟨hsame, rfl⟩

theorem bind {x : EStateM Fault τ α} {y : EStateM Fault τ' α} {f : α → EStateM Fault τ β}
    {g : α → EStateM Fault τ' β} (hx : FailStops K x y) (hf : ∀ a, FailStops K (f a) (g a)) :
    FailStops K (x >>= f) (y >>= g) := fun s => (hx s).bind fun _ => hf _ _

theorem modify {u : τ → τ} {u' : τ' → τ'} (heard : ∀ s, K.Hears s [] (u s))
    (same : ∀ {s s'}, K.Same s s' → K.Same (u s) (u' s') ∧ K.tape (u' s') = K.tape s') :
    FailStops K (modify u : EStateM Fault τ PUnit) (modify u' : EStateM Fault τ' PUnit) :=
  fun s => .quiet (heard s) fun hsame => .ok (same hsame)

end FailStops

/-- What follows the first element of a kind is nothing if that element is the last one. -/
theorem last_of_append {ι : Type} {P : ι → Prop} {before before' after : List ι} {x x' : ι}
    (h : before ++ [x] = before' ++ x' :: after) (hbefore : ∀ y ∈ before, ¬ P y) (hx' : P x') :
    after = [] ∧ x' = x := by
  rcases List.eq_nil_or_concat after with rfl | ⟨after, y, rfl⟩
  · obtain ⟨-, h⟩ := List.append_inj' h rfl
    exact ⟨rfl, (List.singleton_inj.mp h).symm⟩
  · rw [List.concat_eq_append, ← List.cons_append, ← List.append_assoc] at h
    obtain ⟨rfl, -⟩ := List.append_inj' h rfl
    exact absurd hx' (hbefore x' (List.mem_append_right _ List.mem_cons_self))

/-- A computation shows to be fail-stop when the tapes hold its exact answers. -/
theorem StopsAt.failStop {r : EStateM.Result Fault τ α} {y : EStateM Fault τ' α}
    (H : StopsAt K s r y) :
    ∃ es, K.Hears s es (endState r) ∧ K.InOrder es s y ∧
      ∀ s', K.Same s s' → K.tape s' = exactBytes es →
        FailStop es (outcome r) (outcome (y s')) ∧ K.Decoded (endState r) (endState (y s')) := by
  obtain ⟨es, heard, fields, ends, order⟩ := H
  refine ⟨es, heard, order, fun s' hsame htape => ?_⟩
  cases ends with
  | whole exact replay =>
    have halike := @replay s' (fun _ => []) hsame
      (htape.trans (funext fun _ => (List.append_nil _).symm))
    refine ⟨⟨fields, fun before x after f hes hfault => ?_, fun _ => Desk.outcome_alike halike,
      fun stream n answer hmem hfault => absurd (exact _ hmem) hfault⟩,
      K.decoded (Desk.endState_alike halike).1⟩
    have hx := exact x (hes ▸ List.mem_append_right _ List.mem_cons_self)
    rw [hx] at hfault
    cases hfault
  | @broken before stream n answer f t split exact fault surfaces replay =>
    subst surfaces
    obtain ⟨t', hys, h⟩ := replay hsame htape
    have hbefore : ∀ x ∈ before, ¬ x.fault? ≠ none := fun x hx hne => hne (exact x hx)
    refine ⟨⟨fields, fun before' x after f' hes hfault => ?_, fun hexact => ?_,
      fun stream' n' answer' hmem hfault => ?_⟩, hys ▸ h⟩
    · obtain ⟨hafter, rfl⟩ := last_of_append (split.symm.trans hes) hbefore
        (hfault ▸ Option.some_ne_none f')
      cases fault.symm.trans hfault
      exact ⟨hafter, rfl⟩
    · have hlast := hexact _ (split ▸ List.mem_append_right _ List.mem_cons_self)
      cases fault.symm.trans hlast
    · rw [hys]
      rcases List.mem_append.mp (split ▸ hmem) with hmem | hmem
      · exact absurd hfault (hbefore _ hmem)
      · cases List.mem_singleton.mp hmem
        rfl

/-- A computation that began in `s` and came to `r` has had these exchanges and is fail-stop, and
`r'` comes of the same with tapes that hold the exact answers. -/
structure Replay.Shows (K : Replay κ τ τ') (asked : τ → κ → List Request)
    (es : List (Exchange κ)) (s : τ) (r : EStateM.Result Fault τ α)
    (r' : EStateM.Result Fault τ' α) : Prop where
  hears : K.Hears s es (endState r)
  /-- The streams were asked for nothing else. -/
  asked : ∀ stream, asked (endState r) stream = asked s stream ++ requests es stream
  failStop : FailStop es (outcome r) (outcome r')
  decoded : K.Decoded (endState r) (endState r')

theorem StopsAt.shows {r : EStateM.Result Fault τ α} {y : EStateM Fault τ' α}
    (H : StopsAt K s r y) {asked : τ → κ → List Request}
    (recorded : ∀ {es t}, K.Hears s es t →
      ∀ stream, asked t stream = asked s stream ++ requests es stream)
    (taped : List (Exchange κ) → τ')
    (same : ∀ es, K.Same s (taped es) ∧ K.tape (taped es) = exactBytes es) :
    ∃ es, K.Shows asked es s r (y (taped es)) ∧ K.InOrder es s y := by
  obtain ⟨es, heard, order, hstop⟩ := H.failStop
  obtain ⟨hfail, hdecoded⟩ := hstop _ (same es).1 (same es).2
  exact ⟨es, ⟨heard, recorded heard, hfail, hdecoded⟩, order⟩

end

/-! ## Fields -/

section
variable {κ ε ε' α : Type}

/-- States behind a part of another kind, of which `Kin` says when it was made of the same. -/
def Replay.beside {β : Type} (K : Replay κ ε ε') (Kin : β → β → Prop) (refl : ∀ b, Kin b b) :
    Replay κ (β × ε) (β × ε') where
  Hears s es t := K.Hears s.2 es t.2
  Same := Beside K.Same
  Decoded s s' := Kin s.1 s'.1 ∧ K.Decoded s.2 s'.2
  tape s' := K.tape s'.2
  shapes s := K.shapes s.2
  shapes' s' := K.shapes' s'.2
  nothing s := K.nothing s.2
  append := K.append
  decoded h := ⟨h.1 ▸ refl _, K.decoded h.2⟩
  handed := K.handed
  recorded h := K.recorded h.2

/-- States under a meter. -/
abbrev Replay.metered (K : Replay κ ε ε') : Replay κ (Meter × ε) (Meter × ε') :=
  K.beside Eq fun _ => rfl

variable [DecidableEq κ]

/-- A stream is read through `feed`, and through `feed'` where it is a tape. -/
structure Replay.Carries (K : Replay κ ε ε') (stream : κ) (feed : Feed ε) (feed' : Feed ε') :
    Prop where
  heard : ∀ n e, K.Hears e [.answered stream n (outcome (feed n e))] (endState (feed n e))
  exact : ∀ {n : Nat} {e u : ε} {e' : ε'} {data : Bytes} {rest : κ → Bytes}, K.Same e e' →
    feed n e = .ok data u → data.length = n →
    (K.tape e' = fun other => Exchange.bytes other (.answered stream n (.ok data)) ++ rest other) →
      ∃ u', feed' n e' = .ok data u' ∧ K.Same u u' ∧ K.tape u' = rest
  short : ∀ {n : Nat} {e : ε} {e' : ε'}, K.Same e e' → K.tape e' stream = [] →
    ∃ u', feed' n e' = .ok [] u' ∧ K.Same (endState (feed n e)) u' ∧ K.tape u' = K.tape e'

theorem exactBytes_singleton (x : Exchange κ) (stream : κ) :
    exactBytes [x] stream = x.bytes stream := List.flatMap_singleton ..

variable {K : Replay κ ε ε'} {stream : κ} {feed : Feed ε} {feed' : Feed ε'}

/-- A tape that has nothing. -/
theorem Replay.Carries.read_short (H : K.Carries stream feed feed') {n : Nat} (hpos : 0 < n)
    {e : ε} {e' : ε'} (hsame : K.Same e e') (htape : K.tape e' stream = []) (m : Meter) :
    ∃ u', Meter.read feed' n (m, e') = .error (.wrongCount n 0) (m, u') ∧
      K.Same (endState (feed n e)) u' ∧ K.tape u' = K.tape e' := by
  obtain ⟨u', hu', hsame', htape'⟩ := H.short hsame htape
  have hne : ¬ (0 : Int) = n := by omega
  exact ⟨u', by simp only [Meter.read, hu', List.length_nil, Int.ofNat_zero, if_neg hne], hsame',
    htape'⟩

theorem Replay.Carries.read_inOrder (H : K.Carries stream feed feed') {n : Nat} (hpos : 0 < n)
    (m : Meter) (e : ε) (answer : Except Fault Bytes) :
    K.metered.InOrder [.answered stream n answer] (m, e) (Meter.read feed' n) := by
  rintro before stream' n' answer' after hes ⟨_, e'⟩ rest ⟨rfl, hsame⟩ hrest htape
  obtain ⟨rfl, hes⟩ : before = [] ∧ _ := by
    cases before with
    | nil => exact ⟨rfl, hes⟩
    | cons x before => cases before <;> cases hes
  cases hes
  have htape : K.tape e' = rest := htape
  obtain ⟨u', hu', hsame', htape'⟩ := H.read_short hpos hsame (htape ▸ hrest) m
  refine ⟨(m, u'), hu', htape'.trans htape, (K.recorded hsame').trans ?_⟩
  exact (K.handed (H.heard n e) :)

theorem Meter.read_failStops (H : K.Carries stream feed feed') {n : Nat}
    (hn : n = 2 ∨ n = 4 ∨ n = 8) :
    FailStops K.metered (Meter.read feed n) (Meter.read feed' n) := by
  rintro ⟨m, e⟩
  have hpos : 0 < n := by omega
  have hheard := H.heard n e
  have horder := H.read_inOrder hpos m e (outcome (feed n e))
  -- Where the answer is not exact the tape has nothing.
  have hshort {f : Fault}
      (hfault : Exchange.fault? (.answered stream n (outcome (feed n e))) = some f)
      {t : Meter × ε'} (hsame : K.metered.Same (m, e) t)
      (htape : K.metered.tape t = exactBytes [.answered stream n (outcome (feed n e))]) :
      ∃ u, Meter.read feed' n t = .error (.wrongCount n 0) u ∧
        K.metered.Decoded (m, endState (feed n e)) u := by
    obtain ⟨_, e'⟩ := t
    obtain ⟨rfl, hsame⟩ := hsame
    have hnone : K.tape e' stream = [] := (congrFun htape stream).trans
      ((exactBytes_singleton _ stream).trans (Exchange.bytes_of_fault hfault stream))
    obtain ⟨u', hu', hsame', -⟩ := H.read_short hpos hsame hnone m
    exact ⟨(m, u'), hu', rfl, K.decoded hsame'⟩
  have hfields : ∀ x ∈ [Exchange.answered stream n (outcome (feed n e))], x.IsField :=
    List.forall_mem_singleton.mpr (show (n : Int) = 2 ∨ (n : Int) = 4 ∨ (n : Int) = 8 by omega)
  have hends := Meter.read_ends feed n (m, e)
  generalize Meter.read feed n (m, e) = r at hends ⊢
  refine ⟨_, ?_, hfields, ?_, horder⟩
  · cases hends with
    | refused answer | inexact answer | exact answer =>
      rw [answer] at hheard ⊢
      exact hheard
  cases hends with
  | refused answer =>
    rw [answer] at hshort ⊢
    exact .broken (List.nil_append _).symm (List.forall_mem_nil _) rfl rfl (hshort rfl)
  | inexact answer length =>
    rw [answer] at hshort ⊢
    exact .broken (List.nil_append _).symm (List.forall_mem_nil _) (if_neg length) rfl
      (hshort (if_neg length))
  | @exact data u answer length =>
    rw [answer]
    refine .whole (List.forall_mem_singleton.mpr (if_pos length)) ?_
    rintro ⟨_, e'⟩ rest ⟨rfl, hsame⟩ htape
    simp only [outcome, exactBytes_singleton] at htape
    obtain ⟨u', hu', hsame', htape'⟩ := H.exact hsame answer (Int.natCast_inj.mp length) htape
    have hread : Meter.read feed' n (m, e') = .ok data (m.count data.length, u') := by
      simp only [Meter.read, hu', if_pos length]
    rw [hread]
    exact .ok ⟨⟨rfl, hsame'⟩, htape'⟩

/-- Whatever is put together from fields is fail-stop. -/
theorem Fieldwise.failStops (H : K.Carries stream feed feed') {x : Metered ε α}
    {y : Metered ε' α} (F : Fieldwise feed feed' x y) : FailStops K.metered x y := by
  induction F with
  | pure a => exact .pure a
  | throw f => exact .throw f
  | read n width => exact Meter.read_failStops H width
  | look _ ih =>
    intro s
    refine (ih s.1 s).congr fun {s'} hsame => ?_
    rw [hsame.1]
    rfl
  | bind _ _ ihx ihf => exact ihx.bind ihf

/-! ## Headers -/

/-- Under a meter of its own, which is then dropped. -/
def Meter.unmetered (x : Metered ε α) : EStateM Fault ε α := fun e =>
  match x (.start none, e) with
  | .ok a (_, e) => .ok a e
  | .error f (_, e) => .error f e

theorem FailStops.unmetered {x : Metered ε α} {y : Metered ε' α} (H : FailStops K.metered x y) :
    FailStops K (Meter.unmetered x) (Meter.unmetered y) := by
  intro e
  refine (H (.start none, e)).wrap (fun h => ?_) (fun hx => ?_) rfl fun {e'} hsame =>
    ⟨(.start none, e'), ⟨rfl, hsame⟩, rfl, fun halike => ?_, fun {f' t'} hy => ?_⟩
  · simp only [Meter.unmetered]
    cases hx : x (.start none, e) <;> rw [hx] at h <;> exact h
  · simp only [Meter.unmetered, hx]
    exact ⟨_, rfl⟩
  · simp only [Meter.unmetered]
    generalize x (.start none, e) = r at halike ⊢
    generalize y (.start none, e') = r' at halike ⊢
    cases halike with
    | ok h => exact .ok ⟨h.1.2, h.2⟩
    | error h => exact .error ⟨h.1.2, h.2⟩
  · simp only [Meter.unmetered, hy]
    refine ⟨t'.2, rfl, rfl, rfl, fun hx h => ?_⟩
    rw [hx]
    exact h.2

theorem Header.read_eq_bind (feed : Feed ε) :
    Header.read feed = Meter.unmetered (readFields feed) >>= fun h =>
      match h.defect? with
      | none => pure h
      | some f => throw f := by
  funext e
  simp only [Header.read, bind, EStateM.bind, Meter.unmetered]
  cases readFields feed (.start none, e) with
  | error f t => rfl
  | ok h t =>
    simp only
    cases h.defect? <;> rfl

theorem Header.read_failStops (H : K.Carries stream feed feed') :
    FailStops K (Header.read feed) (Header.read feed') := by
  rw [Header.read_eq_bind, Header.read_eq_bind]
  refine ((readFields_fieldwise feed feed').failStops H).unmetered.bind fun h => ?_
  cases h.defect? with
  | none => exact .pure h
  | some f => exact .throw f

end
end Shapefile
