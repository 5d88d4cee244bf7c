import Mathlib.Data.List.Induction
import Rozi.Library.Justified
import Rozi.Session.Browse

/-!
What the history of a server says of a key: the latest request that is not answered, the jobs that
are fresh enough to answer it, and the messages that may be sent.
-/

namespace Rozi.Browse

section history

variable {E F : Type}

def Happened.Concerns (key : BrowseRequestKey) : Happened E F → Prop
  | .accepted request => request.key = key
  | .sent _ _ (some job) => job.request.key = key
  | .left _ | .submitted _ | .finished _ _ | .sent _ _ none => False

/-- What a history leaves unanswered of a key: the latest request since the last answer. -/
def Happened.follow (key : BrowseRequestKey) (held : Option BrowseRequest) :
    Happened E F → Option BrowseRequest
  | .accepted request => if request.key = key then some request else held
  | .sent _ _ (some job) => if job.request.key = key then none else held
  | .left _ | .submitted _ | .finished _ _ | .sent _ _ none => held

def latest (key : BrowseRequestKey) (history : List (Happened E F)) : Option BrowseRequest :=
  history.foldl (Happened.follow key) none

/-- The job was submitted after its request had been accepted, and nothing else was asked of the
key since. -/
def Fresh (history : List (Happened E F)) (job : Job) : Prop :=
  ∃ before since : List (Happened E F), history = before ++ .accepted job.request :: since ∧
    (∀ request, .accepted request ∈ since → request.key ≠ job.request.key) ∧
    .submitted job ∈ since

def ServerEvent.message : ServerEvent E F → ServerMessage E F
  | .directoryListing _ path _ entries error => .directoryListing path entries error
  | .changeListing _ root changes error => .changeListing root changes error

def ServerEvent.key : ServerEvent E F → BrowseRequestKey
  | .directoryListing clientId path _ _ _ => .directory clientId path
  | .changeListing clientId root _ _ => .changes clientId root

/-- What a message may be sent for: to a client that has not left, and what tells of a job is what
that job came to, for the latest request of its client. -/
def Answers (encodes : ServerMessage E F → Bool) (before : List (Happened E F)) :
    Happened E F → Prop
  | .sent client message job =>
      .left client ∉ before ∧ ∀ done ∈ job, client = done.request.clientId ∧ Fresh before done ∧
        ∃ event, .finished done event ∈ before ∧
          message = Server.encodable encodes event.message
  | .left _ | .accepted _ | .submitted _ | .finished _ _ => True

def submissions (history : List (Happened E F)) : List Nat :=
  history.filterMap fun
    | .submitted job => some job.number
    | _ => none

/-- The request was accepted, and since then its key neither asked for again nor answered. -/
def Unanswered (history : List (Happened E F)) (request : BrowseRequest) : Prop :=
  ∃ before since : List (Happened E F), history = before ++ .accepted request :: since ∧
    ∀ happened ∈ since, ¬ happened.Concerns request.key

variable {key : BrowseRequestKey} {history : List (Happened E F)} {request : BrowseRequest}

theorem latest_snoc (happened : Happened E F) :
    latest key (history ++ [happened]) = happened.follow key (latest key history) := by
  rw [latest, List.foldl_append]
  rfl

theorem follow_of_not_concerns {happened : Happened E F} {held : Option BrowseRequest}
    (other : ¬ happened.Concerns key) : happened.follow key held = held := by
  cases happened with
  | accepted request => exact if_neg other
  | sent client message job =>
      cases job with
      | some job => exact if_neg other
      | none => rfl
  | left client => rfl
  | submitted job => rfl
  | finished job event => rfl

theorem latest_of_unanswered (unanswered : Unanswered history request) :
    latest request.key history = some request := by
  rcases unanswered with ⟨before, since, split, silent⟩
  rw [split, latest, List.foldl_append, List.foldl_cons, Happened.follow, if_pos rfl]
  clear split
  induction since with
  | nil => rfl
  | cons happened since ih =>
      rw [List.foldl_cons, follow_of_not_concerns (silent happened List.mem_cons_self)]
      exact ih fun other member => silent other (List.mem_cons_of_mem _ member)

/-- The last request of a key was accepted, and nothing of its key since. -/
theorem accepted_of_latest (asked : latest key history = some request) :
    request.key = key ∧ ∃ before since : List (Happened E F),
      history = before ++ .accepted request :: since ∧
      ∀ other, .accepted other ∈ since → other.key ≠ key := by
  induction history using List.reverseRecOn with
  | nil => cases asked
  | append_singleton history happened ih =>
      rw [latest_snoc] at asked
      have kept (same : latest key history = some request)
          (quiet : ∀ other, happened = .accepted other → other.key ≠ key) :
          request.key = key ∧ ∃ before since,
            history ++ [happened] = before ++ .accepted request :: since ∧
              ∀ other, .accepted other ∈ since → other.key ≠ key := by
        rcases ih same with ⟨own, before, since, split, last⟩
        refine ⟨own, before, since ++ [happened], by rw [split]; simp, ?_⟩
        intro other member
        rcases List.mem_append.mp member with member | member
        · exact last other member
        · exact quiet other (List.mem_singleton.mp member).symm
      by_cases concerned : happened.Concerns key
      · cases happened with
        | accepted other =>
            have same : some other = some request := (if_pos concerned).symm.trans asked
            cases same
            exact ⟨concerned, history, [], rfl, fun _ member => absurd member List.not_mem_nil⟩
        | sent client message job =>
            cases job with
            | some job =>
                have answered : none = some request := (if_pos concerned).symm.trans asked
                cases answered
            | none => exact absurd concerned id
        | left client => exact absurd concerned id
        | submitted job => exact absurd concerned id
        | finished job event => exact absurd concerned id
      · rw [follow_of_not_concerns concerned] at asked
        refine kept asked ?_
        intro other same own
        rw [same] at concerned
        exact concerned own

theorem Fresh.snoc {job : Job} (fresh : Fresh history job) {happened : Happened E F}
    (quiet : ¬ happened.Concerns job.request.key) : Fresh (history ++ [happened]) job := by
  rcases fresh with ⟨before, since, split, last, submitted⟩
  refine ⟨before, since ++ [happened], by rw [split]; simp, ?_, List.mem_append_left _ submitted⟩
  intro other member
  rcases List.mem_append.mp member with member | member
  · exact last other member
  · intro own
    rw [← List.mem_singleton.mp member] at quiet
    exact quiet own

theorem latest_append {more : List (Happened E F)}
    (quiet : ∀ happened ∈ more, ¬ happened.Concerns key) :
    latest key (history ++ more) = latest key history := by
  induction more using List.reverseRecOn with
  | nil => rw [List.append_nil]
  | append_singleton more happened ih =>
      rw [← List.append_assoc, latest_snoc, follow_of_not_concerns
        (quiet happened (List.mem_append_right _ List.mem_cons_self)),
        ih fun other member => quiet other (List.mem_append_left _ member)]

theorem Fresh.append {job : Job} (fresh : Fresh history job) {more : List (Happened E F)}
    (quiet : ∀ happened ∈ more, ¬ happened.Concerns job.request.key) :
    Fresh (history ++ more) job := by
  induction more using List.reverseRecOn with
  | nil => rwa [List.append_nil]
  | append_singleton more happened ih =>
      rw [← List.append_assoc]
      exact (ih fun other member => quiet other (List.mem_append_left _ member)).snoc
        (quiet happened (List.mem_append_right _ List.mem_cons_self))

theorem fresh_of_latest {job : Job} (asked : latest key history = some job.request) :
    Fresh (history ++ [.submitted job]) job := by
  rcases accepted_of_latest asked with ⟨own, before, since, split, last⟩
  refine ⟨before, since ++ [.submitted job], by rw [split]; simp, ?_,
    List.mem_append_right _ List.mem_cons_self⟩
  intro other member
  rw [own]
  rcases List.mem_append.mp member with member | member
  · exact last other member
  · cases List.mem_singleton.mp member

end history

end Rozi.Browse
