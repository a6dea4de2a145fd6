import Shapefile.Proofs.SessionClient
import Shapefile.Proofs.Upkeep

/-! # The last message of a session

Whatever a client does, at all times the message of its session is that of the latest operation that
failed for the files or the memory (`Workspace.last_message`). -/

namespace Shapefile.Workspace

open Desk (outcome endState)

variable {σ : Type}

/-- The text of the latest fault that a text is kept of. -/
def lastMessage (h : History) : String :=
  (h.findSome? fun moment => moment.1.fault?.bind Fault.kept?).getD ""

/-- Records the history. -/
def historian : Recorder σ History where
  history := id
  event _ e after memo := (e, after.session) :: memo

/-- The message is the last one, and was at all times. -/
structure Tracks (error : String) (h : History) : Prop where
  here : error = lastMessage h
  past : ∀ later e session earlier, h = later ++ (e, session) :: earlier →
    session.error = lastMessage ((e, session) :: earlier)

theorem lastMessage_cons (e : Event) (session : Session) (h : History) :
    lastMessage ((e, session) :: h) = (e.fault?.bind Fault.kept?).getD (lastMessage h) := by
  simp only [lastMessage, List.findSome?_cons]
  cases e.fault?.bind Fault.kept? <;> rfl

theorem Tracks.noted {e : Event} {v w : Workspace σ History} {error : String}
    (H : Tracks error w.memo)
    (hend : w.session.error = (e.fault?.bind Fault.kept?).getD error) :
    Holds Tracks (historian.note v e w) := by
  have hhere : w.session.error = lastMessage ((e, w.session) :: w.memo) := by
    rw [lastMessage_cons, hend, H.here]
  refine ⟨hhere, fun later e' session earlier h => ?_⟩
  cases later with
  | nil =>
    cases h
    exact hhere
  | cons moment later => exact H.past later e' session earlier (List.cons.inj h).2

section
variable {α : Type} {x : Action σ History α}

/-- After an operation that keeps the message of its fault. -/
theorem Ends.keepsAfter (H : Ends Tracks x) {e : Except Fault α → Event}
    (he : ∀ o error, ((e o).fault?.bind Fault.kept?).getD error = lastAfter o error) :
    historian.KeepsAfter (Holds Tracks) x e := by
  intro w h
  obtain ⟨error, htracks, hend⟩ := H h
  exact htracks.noted (hend.trans (he _ error).symm)

theorem Keeps.keepsAfter (H : Keeps Tracks x) {e : Except Fault α → Event}
    (he : ∀ o, (e o).fault? = none) : historian.KeepsAfter (Holds Tracks) x e :=
  fun _ h => Tracks.noted (H h) (by rw [he]; rfl)

end

theorem historian_keeps [Source σ] : (historian (σ := σ)).Keeps (Holds Tracks) where
  parsed path _ C := (parse_ends path C).keepsAfter fun o _ => by cases o <;> rfl
  parsedStreams shp shx _ C :=
    (parseStreams_ends shp shx C).keepsAfter fun o _ => by cases o <;> rfl
  gathered path := (shapes_ends path).keepsAfter fun o _ => by cases o <;> rfl
  made path _ _ _ hmade h := by
    cases hmade
    exact Tracks.noted h rfl
  asked i := (next_ends i).keepsAfter fun o _ => by cases o <;> rfl
  dismissed i := (closeIterator_keeps i).keepsAfter fun _ => rfl
  closed := close_keeps.keepsAfter fun _ => rfl
  changed c := (changeTree_keeps c).keepsAfter fun _ => rfl

/-- The last message is a text of its own, or is taken from a fault that an operation ended with. -/
theorem lastMessage_cases (h : History) :
    lastMessage h = "" ∨ lastMessage h = "Out of memory" ∨
      ∃ moment ∈ h, ∃ f, moment.1.fault? = some f ∧ f.isShapefile = true ∧
        lastMessage h = String.ofList (f.message.toList.take 255) := by
  unfold lastMessage
  cases hfind : h.findSome? fun moment => moment.1.fault?.bind Fault.kept? with
  | none => exact .inl rfl
  | some text =>
    obtain ⟨moment, hmem, hkept⟩ := List.exists_of_findSome?_eq_some hfind
    obtain ⟨f, hfault, htext⟩ := Option.bind_eq_some_iff.mp hkept
    unfold Fault.kept? at htext
    split at htext
    · rename_i hshapefile
      cases htext
      exact .inr (.inr ⟨moment, hmem, f, hfault, hshapefile, rfl⟩)
    · split at htext
      · cases htext
        exact .inr (.inl rfl)
      · cases htext

theorem length_lastMessage (h : History) : (lastMessage h).length ≤ 255 := by
  rcases lastMessage_cases h with heq | heq | ⟨_, _, f, _, _, heq⟩
  · rw [heq]
    decide
  · rw [heq]
    decide
  · rw [heq, String.length_ofList]
    exact List.length_take_le 255 _

theorem lastMessage_isPrefix (h : History) :
    lastMessage h = "" ∨ lastMessage h = "Out of memory" ∨
      ∃ moment ∈ h, ∃ f, moment.1.fault? = some f ∧ f.isShapefile = true ∧
        (lastMessage h).toList <+: f.message.toList := by
  refine (lastMessage_cases h).imp_right (.imp_right ?_)
  rintro ⟨moment, hmem, f, hfault, hshapefile, heq⟩
  refine ⟨moment, hmem, f, hfault, hshapefile, ?_⟩
  rw [heq, String.toList_ofList]
  exact List.take_prefix 255 _

/-- Whatever a client does with a new session, at all times its message is that of the latest
operation that failed for the files or the memory. So it has at most 255 characters, and they are
the first ones of the message of the fault. -/
theorem last_message [Source σ] (tree : FileTree) (streams : List σ) (c : Client) :
    let w := endState (c.exec historian (.init tree streams []))
    w.session.error = lastMessage w.memo ∧
      ∀ later e session earlier, w.memo = later ++ (e, session) :: earlier →
        session.error = lastMessage ((e, session) :: earlier) ∧
        session.error.length ≤ 255 ∧
        (session.error = "" ∨ session.error = "Out of memory" ∨
          ∃ moment ∈ (e, session) :: earlier, ∃ f, moment.1.fault? = some f ∧
            f.isShapefile = true ∧ session.error.toList <+: f.message.toList) := by
  have hstart : Holds Tracks (init tree streams ([] : History)) :=
    ⟨rfl, fun later e session earlier h => by cases later <;> cases h⟩
  have hend := c.exec_preserves historian_keeps hstart
  refine ⟨hend.here, fun later e session earlier h => ?_⟩
  have hpast := hend.past later e session earlier h
  rw [hpast]
  exact ⟨rfl, length_lastMessage _, lastMessage_isPrefix _⟩

end Shapefile.Workspace
