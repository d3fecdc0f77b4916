import Overlay.Host.BringUp

/-!
# Opening the listeners of a role

`Ground.opened` are the listeners that the network lets be opened, those of the free addresses
that it accepts. The opening of listeners adds just these to a switchboard, unless a primary
listener is not among them, and then it fails (`Opening`).
-/

namespace Overlay.Host

section Opening

variable (ground : Ground) (port : UInt16) (scope : ListenScope)

/-- The `n`-th listener, if the network lets it be opened. -/
def Ground.open? (n : Nat) (spec : ListenSpec) : Option Listener :=
  match ground.claim (spec.address port scope), ground.listen n (spec.address port scope) with
  | .ok (), .ok id => some ⟨id, spec.address port scope, spec.primary, []⟩
  | _, _ => none

/-- The listeners that the network lets be opened. -/
def Ground.opened : (n : Nat) → List ListenSpec → List Listener
  | _, [] => []
  | n, spec :: rest => (ground.open? port scope n spec).toList ++ Ground.opened (n + 1) rest

variable {ground port scope} {n : Nat} {spec : ListenSpec} {specs : List ListenSpec}

theorem of_open? {l : Listener} (h : ground.open? port scope n spec = some l) :
    l.primary = spec.primary ∧ l.addresses = [] := by
  unfold Ground.open? at h
  split at h
  · cases h
    exact ⟨rfl, rfl⟩
  · cases h

/-- A listener that was just opened is primary if its specification is, and has no address. -/
theorem of_mem_opened {l : Listener} (h : l ∈ ground.opened port scope n specs) :
    (∃ spec ∈ specs, l.primary = spec.primary) ∧ l.addresses = [] := by
  induction specs generalizing n with
  | nil => cases h
  | cons spec specs ih =>
    rcases List.mem_append.1 h with h | h
    · obtain ⟨hprimary, haddresses⟩ := of_open? (Option.mem_toList.1 h)
      exact ⟨⟨spec, List.mem_cons_self, hprimary⟩, haddresses⟩
    · obtain ⟨⟨spec', hspec', hprimary⟩, haddresses⟩ := ih h
      exact ⟨⟨spec', List.mem_cons_of_mem _ hspec', hprimary⟩, haddresses⟩

theorem exists_opened_single (h : ground.opened port scope n [spec] ≠ []) :
    ∃ l, ground.opened port scope n [spec] = [l] ∧ l.primary = spec.primary := by
  rw [Ground.opened, Ground.opened, List.append_nil] at h ⊢
  rcases hopen : ground.open? port scope n spec with - | l
  · rw [hopen] at h
    exact absurd rfl h
  · exact ⟨l, rfl, (of_open? hopen).1⟩

namespace Switchboard

variable (ground port scope n specs) in
/-- All that the opening of listeners can come to: those that the network lets be opened are
added, or a primary one is not among them. -/
inductive Opening (s : Switchboard) : Except BringUpError Switchboard → Prop
  | opened (hprimary : ∀ spec ∈ specs, spec.primary = true →
      ∃ l ∈ ground.opened port scope n specs, l.primary = true) :
      Opening s (.ok { s with listeners := s.listeners ++ ground.opened port scope n specs })
  | refused {spec : ListenSpec} {reason : String} (hspec : spec ∈ specs)
      (hprimary : spec.primary = true) :
      Opening s (.error (.transportBind (spec.address port scope).render reason))

variable (ground port scope n spec) in
/-- A listener that cannot be opened is a failure if it is primary, and skipped otherwise. -/
theorem openListener_eq (s : Switchboard) :
    ∃ reason, s.openListener (spec.address port scope) spec.primary
        (ground.claim (spec.address port scope)) (ground.listen n (spec.address port scope)) =
      match ground.open? port scope n spec with
      | some l => .ok { s with listeners := s.listeners ++ [l] }
      | none =>
        if spec.primary = true then
          .error (.transportBind (spec.address port scope).render reason)
        else .ok s := by
  unfold Ground.open? openListener
  rcases ground.claim (spec.address port scope) with reason | ⟨⟩
  · exact ⟨reason, rfl⟩
  · rcases ground.listen n (spec.address port scope) with refusal | id
    · exact ⟨refusal.reason, rfl⟩
    · exact ⟨"", rfl⟩

/-- What comes first is opened, or need not be. -/
theorem Opening.cons {s : Switchboard} {result : Except BringUpError Switchboard}
    (hfirst : spec.primary = true → (ground.open? port scope n spec).isSome)
    (h : Opening ground port scope (n + 1) specs
      { s with listeners := s.listeners ++ (ground.open? port scope n spec).toList } result) :
    Opening ground port scope n (spec :: specs) s result := by
  cases h with
  | opened hrest =>
    have hlisteners : s.listeners ++ ground.opened port scope n (spec :: specs) =
        s.listeners ++ (ground.open? port scope n spec).toList ++
          ground.opened port scope (n + 1) specs := by
      rw [List.append_assoc, Ground.opened]
    dsimp only
    rw [← hlisteners]
    refine .opened fun other hother hprimary ↦ ?_
    rcases List.mem_cons.1 hother with rfl | hother
    · obtain ⟨l, hl⟩ := Option.isSome_iff_exists.1 (hfirst hprimary)
      refine ⟨l, List.mem_append_left _ (Option.mem_toList.2 hl), ?_⟩
      rw [(of_open? hl).1, hprimary]
    · obtain ⟨l, hl, hlprimary⟩ := hrest other hother hprimary
      exact ⟨l, List.mem_append_right _ hl, hlprimary⟩
  | refused hspec hprimary => exact .refused (List.mem_cons_of_mem _ hspec) hprimary

theorem opening (s : Switchboard) :
    Opening ground port scope n specs s (openListeners ground port scope n specs s) := by
  induction specs generalizing n s with
  | nil =>
    have hnil : openListeners ground port scope n [] s =
        .ok { s with listeners := s.listeners ++ ground.opened port scope n [] } := by
      simp [openListeners, Ground.opened]
    rw [hnil]
    exact .opened fun _ h ↦ by cases h
  | cons spec specs ih =>
    obtain ⟨reason, hstep⟩ := s.openListener_eq ground port scope n spec
    rw [openListeners]
    simp only [hstep]
    rcases hopen : ground.open? port scope n spec with - | l
    · by_cases hprimary : spec.primary = true
      · simp only [hprimary, if_true]
        exact .refused List.mem_cons_self hprimary
      · simp only [hprimary]
        refine .cons (fun h ↦ absurd h hprimary) ?_
        simp only [hopen, Option.toList_none, List.append_nil]
        exact ih s
    · refine .cons (fun _ ↦ by rw [hopen]; rfl) ?_
      simp only [hopen]
      exact ih _

end Switchboard

end Opening

end Overlay.Host
