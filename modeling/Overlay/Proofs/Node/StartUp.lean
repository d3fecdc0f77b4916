import Overlay.Proofs.Connect.Reaching
import Overlay.Proofs.Node.Leg
import Overlay.Proofs.Node.Supply
import Overlay.Proofs.Text.Utf8

/-!
# The start-up of a node

A node that requires bootstrap peers may be stopped at two places, and for different reasons. The
configuration stops it if something was supplied and none of it names a contact; joining stops it
if it has contacts and none of them is reached. `start_up_law` says that both together stop it
exactly if something was supplied and no entry of it is `Answered`.

The first place is `Config.ofArguments_eq_ok_iff`. For the second, `enterOverlay_spec` says what
joining does with any contacts, and `reached_named_iff` leads from the contacts back to the
entries that name them. What joining records and what it does are kept together: the routing table
is bootstrapped exactly where the record says so (`enterOverlay_of_reached`).
-/

namespace Overlay.Node.Mission

open Config (supply listSupply pathSupply ofArguments ofSupply Readable Hopeless)
open Contact (named)

variable {σ : Type} (f : Facilities σ) (policy : Policy)

/-! ### Joining the overlay -/

/-- Somebody of a list is reached. -/
def Reached (contacts : List Contact) (j : Journey σ) : Prop :=
  f.connect.Reaches policy j.now contacts j.world

/-- The moment at which everybody of a list has been reached or has failed. The attempts begin
all at once, so it is the end of the longest. -/
def gatheredAt (contacts : List Contact) (j : Journey σ) : Nat :=
  j.now + ((f.connect.askAll contacts j.world).1.map (policy.span j.now)).foldr max 0

/-- The world that the attempts leave behind. Where it is too late to begin nobody is asked. -/
def gatheredWorld (contacts : List Contact) (j : Journey σ) : σ :=
  if policy.admits j.now then (f.connect.askAll contacts j.world).2 else j.world

/-- The routing table is to be bootstrapped: somebody is reached, the role routes, and nothing has
been cancelled by then. -/
def Routes (config : Config) (j : Journey σ) : Prop :=
  Reached f policy config.bootstrap j ∧ config.role.profile.routes = true ∧
    ∀ C ∈ policy.cancelAt, gatheredAt f policy config.bootstrap j < C

theorem not_reached_nil (j : Journey σ) : ¬ Reached f policy [] j :=
  f.connect.not_reaches_nil policy j.now j.world

/-- What comes of the attempts, as far as joining looks at it. -/
theorem exists_all (contacts : List Contact) (j : Journey σ) :
    ∃ attendance, Connect.all policy f.connect j.now contacts j.world =
        (attendance, gatheredAt f policy contacts j, gatheredWorld f policy contacts j) ∧
      (attendance.reachedAnyone = true ↔ Reached f policy contacts j) := by
  have hreached := Connect.reachedAnyone_iff policy j.now f.connect contacts j.world
  have hall := Connect.all_eq policy f.connect j.now contacts j.world
  rw [hall] at hreached
  exact ⟨_, hall, hreached⟩

theorem gatheredWorld_nil (j : Journey σ) : gatheredWorld f policy [] j = j.world :=
  ite_self ..

variable {f policy} {config : Config} {j : Journey σ}

/-- Without contacts there is nothing to join. -/
theorem enterOverlay_of_nil (h : config.bootstrap = []) :
    enterOverlay f policy config j = (.ok (), j) :=
  if_pos h

/-- If nobody is reached, joining fails for a role that requires somebody. -/
theorem enterOverlay_of_not_reached (hsome : config.bootstrap ≠ [])
    (h : ¬ Reached f policy config.bootstrap j) :
    ((enterOverlay f policy config j).1 = .ok () ↔
        ¬ config.role.profile.requiresBootstrap = true) ∧
      (enterOverlay f policy config j).2.actions = .enterOverlay config.bootstrap :: j.actions ∧
      (enterOverlay f policy config j).2.world = gatheredWorld f policy config.bootstrap j := by
  obtain ⟨attendance, hall, hreached⟩ := exists_all f policy config.bootstrap j
  rw [enterOverlay, if_neg hsome, hall]
  simp only [if_neg (hreached.not.2 h)]
  by_cases hrequired : config.role.profile.requiresBootstrap = true
  · rw [if_pos hrequired]
    exact ⟨⟨fun hok ↦ (by cases hok), fun hnot ↦ absurd hrequired hnot⟩, rfl, rfl⟩
  · rw [if_neg hrequired]
    exact ⟨⟨fun _ ↦ hrequired, fun _ ↦ rfl⟩, rfl, rfl⟩

/-- If somebody is reached, joining succeeds whatever becomes of the routing table. -/
theorem enterOverlay_of_reached (h : Reached f policy config.bootstrap j) :
    (enterOverlay f policy config j).1 = .ok () ∧
      (Routes f policy config j →
        (enterOverlay f policy config j).2.actions =
            .bootstrapRouting :: .enterOverlay config.bootstrap :: j.actions ∧
          (enterOverlay f policy config j).2.world =
            (f.bootstrapRouting (gatheredWorld f policy config.bootstrap j)).2) ∧
      (¬ Routes f policy config j →
        (enterOverlay f policy config j).2.actions = .enterOverlay config.bootstrap :: j.actions ∧
          (enterOverlay f policy config j).2.world =
            gatheredWorld f policy config.bootstrap j) := by
  have hsome : config.bootstrap ≠ [] := fun hnil ↦ not_reached_nil f policy j (hnil ▸ h)
  obtain ⟨attendance, hall, hreached⟩ := exists_all f policy config.bootstrap j
  rw [enterOverlay, if_neg hsome, hall]
  simp only [if_pos (hreached.2 h)]
  by_cases hroutes : config.role.profile.routes = true
  · rw [if_pos hroutes]
    simp only [Leg.actions_bounded, Leg.world_bounded, Leg.begun, true_and]
    constructor
    · intro hrouting
      have hadmits := (policy.admits_iff _).2 hrouting.2.2
      exact ⟨if_pos hadmits, if_pos hadmits⟩
    · intro hnot
      have hlate : ¬ policy.admits (gatheredAt f policy config.bootstrap j) = true :=
        fun hadmits ↦ hnot ⟨h, hroutes, (policy.admits_iff _).1 hadmits⟩
      exact ⟨if_neg hlate, if_neg hlate⟩
  · rw [if_neg hroutes]
    exact ⟨rfl, fun hrouting ↦ absurd hrouting.2.1 hroutes, fun _ ↦ ⟨rfl, rfl⟩⟩

variable (f policy config j)

/-- **Joining the overlay.** It fails only where bootstrap peers are required, there are some, and
none is reached, and the bootstrap of the routing table follows once somebody is reached. It is run
on the world that the attempts leave behind exactly if it is recorded as begun. -/
theorem enterOverlay_spec :
    let run := enterOverlay f policy config j
    (run.1 = .ok () ↔ (config.role.profile.requiresBootstrap = true →
      config.bootstrap = [] ∨ Reached f policy config.bootstrap j)) ∧
    ∃ begun, run.2.actions = begun.reverse ++ j.actions ∧
      begun <+: [.enterOverlay config.bootstrap, .bootstrapRouting] ∧
      (.enterOverlay config.bootstrap ∈ begun ↔ config.bootstrap ≠ []) ∧
      (.bootstrapRouting ∈ begun ↔ Routes f policy config j) ∧
      (.bootstrapRouting ∈ begun → run.2.world =
        (f.bootstrapRouting (gatheredWorld f policy config.bootstrap j)).2) ∧
      (.bootstrapRouting ∉ begun →
        run.2.world = gatheredWorld f policy config.bootstrap j) := by
  intro run
  by_cases hnil : config.bootstrap = []
  · have hnobody : ¬ Reached f policy config.bootstrap j := hnil ▸ not_reached_nil f policy j
    have hrun : run = (.ok (), j) := enterOverlay_of_nil hnil
    rw [hrun]
    refine ⟨⟨fun _ _ ↦ .inl hnil, fun _ ↦ rfl⟩, [], rfl, List.nil_prefix, ?_, ?_,
      fun h ↦ absurd h List.not_mem_nil, fun _ ↦ ?_⟩
    · exact ⟨fun h ↦ absurd h List.not_mem_nil, fun h ↦ absurd hnil h⟩
    · exact ⟨fun h ↦ absurd h List.not_mem_nil, fun h ↦ absurd h.1 hnobody⟩
    · rw [hnil, gatheredWorld_nil]
  · by_cases hreached : Reached f policy config.bootstrap j
    · obtain ⟨hok, hrouting, hplain⟩ := enterOverlay_of_reached hreached
      refine ⟨⟨fun _ _ ↦ .inr hreached, fun _ ↦ hok⟩, ?_⟩
      by_cases hroutes : Routes f policy config j
      · obtain ⟨hactions, hworld⟩ := hrouting hroutes
        have hbegun : Action.bootstrapRouting ∈
            [.enterOverlay config.bootstrap, .bootstrapRouting] := .tail _ (.head _)
        exact ⟨[.enterOverlay config.bootstrap, .bootstrapRouting], hactions,
          List.prefix_refl _, by simp [hnil], by simp [hroutes], fun _ ↦ hworld,
          fun hnot ↦ absurd hbegun hnot⟩
      · obtain ⟨hactions, hworld⟩ := hplain hroutes
        exact ⟨[.enterOverlay config.bootstrap], hactions, ⟨[.bootstrapRouting], rfl⟩,
          by simp [hnil], by simp [hroutes], by simp, fun _ ↦ hworld⟩
    · obtain ⟨hresult, hactions, hworld⟩ := enterOverlay_of_not_reached hnil hreached
      have hroutes : ¬ Routes f policy config j := fun h ↦ hreached h.1
      refine ⟨hresult.trans ⟨fun hnot h ↦ absurd h hnot, fun h hrequired ↦ ?_⟩, ?_⟩
      · exact (h hrequired).elim hnil hreached
      · exact ⟨[.enterOverlay config.bootstrap], hactions, ⟨[.bootstrapRouting], rfl⟩,
          by simp [hnil], by simp [hroutes], by simp, fun _ ↦ hworld⟩

/-- The bootstrap of the routing table does not decide whether a node has joined. -/
theorem enterOverlay_congr (g : σ → Delayed (Except RoutingError Unit) × σ) :
    (enterOverlay { f with bootstrapRouting := g } policy config j).1 =
      (enterOverlay f policy config j).1 := by
  rw [enterOverlay, enterOverlay]
  by_cases hnil : config.bootstrap = []
  · rw [if_pos hnil, if_pos hnil]
  · rw [if_neg hnil, if_neg hnil]
    dsimp only
    split
    · split <;> rfl
    · split <;> rfl

/-! ### From contacts to entries -/

/-- One of the entries names a contact that connects, when it is its turn: the dialer is asked for
the contacts of the entries before it first. -/
def Answered (entries : List String) : Prop :=
  ∃ before entry after c, entries = before ++ entry :: after ∧ Contact.parse entry = .ok c ∧
    policy.Connects j.now (f.connect c (f.connect.askAll (named before) j.world).2).1

theorem reached_named_iff (entries : List String) :
    Reached f policy (named entries) j ↔ Answered f policy j entries := by
  constructor
  · rintro ⟨_, c, _, hnamed, hconnects⟩
    obtain ⟨before, entry, after, hentries, hparse, rfl, -⟩ :=
      Contact.named_eq_append_cons_iff.1 hnamed
    exact ⟨before, entry, after, c, hentries, hparse, hconnects⟩
  · rintro ⟨before, entry, after, c, hentries, hparse, hconnects⟩
    exact ⟨named before, c, named after,
      Contact.named_eq_append_cons_iff.2 ⟨before, entry, after, hentries, hparse, rfl, rfl⟩,
      hconnects⟩

/-! ### Both together -/

theorem Answered.exists_parse {entries : List String} (h : Answered f policy j entries) :
    ∃ entry ∈ entries, ∃ c, Contact.parse entry = .ok c := by
  obtain ⟨before, entry, after, c, rfl, hparse, -⟩ := h
  exact ⟨entry, List.mem_append_right before List.mem_cons_self, c, hparse⟩

/-- The two places at which a node may be stopped make one: that nothing was supplied and that
nothing of the supply is a contact are kept apart by the configuration. -/
theorem not_stopped_iff (files : Files) (role : Role) (a : RunArguments) :
    (¬ Hopeless files role a ∧ (role.profile.requiresBootstrap = true →
      named (supply files a) = [] ∨ Answered f policy j (supply files a))) ↔
    (role.profile.requiresBootstrap = true →
      supply files a = [] ∨ Answered f policy j (supply files a)) := by
  constructor
  · rintro ⟨hhope, hjoined⟩ hrequired
    refine (hjoined hrequired).imp_left fun hnone ↦ Classical.byContradiction fun hsome ↦ ?_
    exact hhope ⟨hrequired, hsome, Contact.named_eq_nil_iff.1 hnone⟩
  · intro hjoined
    refine ⟨fun ⟨hrequired, hsome, hnone⟩ ↦ ?_, fun hrequired ↦ ?_⟩
    · obtain ⟨entry, hentry, c, hparse⟩ := ((hjoined hrequired).resolve_left hsome).exists_parse
      exact hnone entry hentry c hparse
    · exact (hjoined hrequired).imp_left fun hempty ↦ by rw [hempty]; rfl

/-- **The start-up of a node**, for all files, roles and arguments, and whatever the world answers.

1. There is a configuration exactly if everything can be read and the supply is not hopeless.
2. Its bootstrap contacts are those of the list followed by those of the file, each in order.
3. There is one and the overlay is joined exactly if everything can be read and, where bootstrap
   peers are required, nothing was supplied or one of the entries is answered. A role that requires
   none is stopped by nothing that was supplied and by nobody who does not answer.
4. The bootstrap of the routing table is begun exactly if one of the entries is answered, the role
   routes, and nothing has been cancelled when the last attempt is over. If it is begun, it is run
   on the world that the attempts leave behind; if it is not, that world is left as it is.
5. What comes of it does not matter. -/
theorem start_up_law (files : Files) (role : Role) (a : RunArguments) :
    ((∃ config, ofArguments files role a = .ok config) ↔
      Readable files a ∧ ¬ Hopeless files role a) ∧
    (∀ config, ofArguments files role a = .ok config → config.role = role ∧ config.bootstrap =
      named (listSupply a.bootstrap) ++ named (pathSupply files a.bootstrapFile)) ∧
    ((∃ config, ofArguments files role a = .ok config ∧
        (enterOverlay f policy config j).1 = .ok ()) ↔
      Readable files a ∧ (role.profile.requiresBootstrap = true →
        supply files a = [] ∨ Answered f policy j (supply files a))) ∧
    ∀ config, ofArguments files role a = .ok config →
      (∃ begun, (enterOverlay f policy config j).2.actions = begun.reverse ++ j.actions ∧
        begun <+: [.enterOverlay config.bootstrap, .bootstrapRouting] ∧
        (.bootstrapRouting ∈ begun ↔ Answered f policy j (supply files a) ∧
          role.profile.routes = true ∧
          ∀ C ∈ policy.cancelAt, gatheredAt f policy config.bootstrap j < C) ∧
        (.bootstrapRouting ∈ begun → (enterOverlay f policy config j).2.world =
          (f.bootstrapRouting (gatheredWorld f policy config.bootstrap j)).2) ∧
        (.bootstrapRouting ∉ begun → (enterOverlay f policy config j).2.world =
          gatheredWorld f policy config.bootstrap j)) ∧
      ∀ g, (enterOverlay { f with bootstrapRouting := g } policy config j).1 =
        (enterOverlay f policy config j).1 := by
  have hanswered := reached_named_iff f policy j (supply files a)
  refine ⟨?configured, ?contacts, ?joined, ?routing⟩
  case configured =>
    simp only [Config.ofArguments_eq_ok_iff, exists_and_left, exists_eq, and_true]
  case contacts =>
    intro config hconfig
    obtain ⟨-, -, rfl⟩ := Config.ofArguments_eq_ok_iff.1 hconfig
    exact ⟨rfl, Contact.named_append _ _⟩
  case joined =>
    have hspec := (enterOverlay_spec f policy (ofSupply files role a) j).1
    rw [← not_stopped_iff, ← hanswered]
    constructor
    · rintro ⟨config, hconfig, hjoined⟩
      obtain ⟨hreadable, hhope, rfl⟩ := Config.ofArguments_eq_ok_iff.1 hconfig
      exact ⟨hreadable, hhope, hspec.1 hjoined⟩
    · rintro ⟨hreadable, hhope, hjoined⟩
      exact ⟨_, Config.ofArguments_eq_ok_iff.2 ⟨hreadable, hhope, rfl⟩, hspec.2 hjoined⟩
  case routing =>
    intro config hconfig
    obtain ⟨-, -, rfl⟩ := Config.ofArguments_eq_ok_iff.1 hconfig
    obtain ⟨-, begun, hactions, hprefix, -, hrouting, hrun, hleft⟩ :=
      enterOverlay_spec f policy (ofSupply files role a) j
    refine ⟨⟨begun, hactions, hprefix, hrouting.trans ?_, hrun, hleft⟩,
      enterOverlay_congr f policy _ j⟩
    rw [Routes, ← hanswered]
    rfl

/-- A node that was given a peer in a file and no good one in the list: it joins over the peer, and
the bootstrap of its routing table is begun and never comes to an end. In this world a connection
counts one, and a bootstrap adds ten. -/
theorem start_up_law_of_one_peer :
    let files : Files := ⟨fun _ ↦ .ok (Text.Utf8.encode "# peers\n\r\n\t/p2p/11 \n".toList)⟩
    let a : RunArguments := { RunArguments.none with
      bootstrap := some ", garbage"
      bootstrapFile := some "peers" }
    let f : Facilities Nat :=
      ⟨fun _ n ↦ (.after 1 (.ok ()), n + 1), fun _ n ↦ (.never, n), fun n ↦ (.never, n + 10),
        fun n ↦ (.ok (), n), fun _ n ↦ (.never, n)⟩
    let policy : Policy := ⟨5, some 9⟩
    let j : Journey Nat := ⟨0, 0, []⟩
    Readable files a ∧ Answered f policy j (supply files a) ∧
      ∃ config, ofArguments files .nodeRunner a = .ok config ∧
        config.bootstrap = [.bare ⟨⟨0, []⟩, rfl⟩] ∧
        (enterOverlay f policy config j).1 = .ok () ∧
        (enterOverlay f policy config j).2.actions =
          [.bootstrapRouting, .enterOverlay config.bootstrap] ∧
        (enterOverlay f policy config j).2.world = 11 := by
  intro files a f policy j
  have htext : files.text "peers" = .ok "# peers\n\r\n\t/p2p/11 \n".toList :=
    Files.text_of_bytes rfl
  have hsupply : supply files a = [" garbage", "\t/p2p/11 "] := by
    show listSupply (some ", garbage") ++ pathSupply files (some "peers") = _
    rw [pathSupply]
    simp only [htext]
    decide +kernel
  have hparse : Contact.parse "\t/p2p/11 " = .ok (.bare ⟨⟨0, []⟩, rfl⟩) := by decide +kernel
  have hnamed : named (supply files a) = [.bare ⟨⟨0, []⟩, rfl⟩] := by
    rw [hsupply]
    decide +kernel
  have hreadable : Readable files a :=
    ⟨fun path _ ↦ ⟨_, Files.text_of_bytes rfl⟩, fun _ h ↦ (by cases h), fun _ h ↦ (by cases h)⟩
  have hanswered : Answered f policy j (supply files a) :=
    ⟨[" garbage"], "\t/p2p/11 ", [], _, hsupply, hparse, 1, rfl, by decide, by decide⟩
  obtain ⟨-, hcontacts, hjoined, hrouting⟩ := start_up_law f policy j files .nodeRunner a
  obtain ⟨config, hconfig, hok⟩ := hjoined.2 ⟨hreadable, fun _ ↦ .inr hanswered⟩
  have hbootstrap : config.bootstrap = [.bare ⟨⟨0, []⟩, rfl⟩] := by
    rw [(hcontacts config hconfig).2, ← hnamed]
    exact (Contact.named_append _ _).symm
  obtain ⟨⟨begun, hactions, hprefix, hbegun, hworld, -⟩, -⟩ := hrouting config hconfig
  have hlast : .bootstrapRouting ∈ begun := by
    refine hbegun.2 ⟨hanswered, rfl, ?_⟩
    rw [hbootstrap]
    decide
  have hgathered : (enterOverlay f policy config j).2.world = 11 := by
    rw [hworld hlast, hbootstrap]
    rfl
  refine ⟨hreadable, hanswered, config, hconfig, hbootstrap, hok, ?_, hgathered⟩
  have hsteps : begun <+: [.enterOverlay config.bootstrap] ++ [.bootstrapRouting] := hprefix
  rcases List.prefix_concat_iff.1 hsteps with rfl | hshort
  · exact hactions
  · exact absurd (hshort.subset hlast) (by simp)

end Overlay.Node.Mission
