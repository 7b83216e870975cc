import CustomerSegments.Proofs.Footprint

namespace CustomerSegments

/-- Every record lies under its own identifier, and the identifier is one of a list. -/
structure Memory.KeyedIn (ids : List Uuid) (m : Memory) : Prop where
  customer : ∀ {id c}, m.customers.get? id = some c → c.id = id ∧ id ∈ ids
  segment : ∀ {id s}, m.segments.get? id = some s → s.id = id ∧ id ∈ ids

namespace Memory.KeyedIn

variable {ids : List Uuid} {m : Memory}

theorem empty : KeyedIn ids Memory.empty :=
  ⟨nofun, nofun⟩

theorem mono {ids' : List Uuid} (keyed : KeyedIn ids m) (more : ids ⊆ ids') : KeyedIn ids' m :=
  ⟨fun live => ⟨(keyed.customer live).1, more (keyed.customer live).2⟩,
    fun live => ⟨(keyed.segment live).1, more (keyed.segment live).2⟩⟩

theorem insertCustomer {c : Customer} (keyed : KeyedIn ids m) (member : c.id ∈ ids) :
    KeyedIn ids { m with customers := m.customers.insert c.id c } := by
  refine ⟨fun {id c'} live => ?_, keyed.segment⟩
  rw [Table.get?_insert] at live
  split at live
  · next same =>
    cases live
    exact ⟨same, same ▸ member⟩
  · exact keyed.customer live

theorem insertSegment {s : Segment} (keyed : KeyedIn ids m) (member : s.id ∈ ids) (names : Table String Uuid) :
    KeyedIn ids { m with names := names, segments := m.segments.insert s.id s } := by
  refine ⟨keyed.customer, fun {id s'} live => ?_⟩
  rw [Table.get?_insert] at live
  split at live
  · next same =>
    cases live
    exact ⟨same, same ▸ member⟩
  · exact keyed.segment live

theorem revise {id : Uuid} {f : Segment → Segment} (keyed : KeyedIn ids m) (stays : ∀ s, (f s).id = s.id) :
    KeyedIn ids (m.revise id f) := by
  constructor
  · intro id c live
    rw [customers_revise] at live
    exact keyed.customer live
  · intro other s live
    rw [get?_revise] at live
    obtain ⟨before, known, rfl⟩ := Option.map_eq_some_iff.1 live
    refine ⟨?_, (keyed.segment known).2⟩
    split
    · exact (stays before).trans (keyed.segment known).1
    · exact (keyed.segment known).1

/-- Only a new record needs an identifier of the list; every other call keeps to those that are there. -/
theorem answer {c : Store.Call} {now : Instant} (keyed : KeyedIn ids m)
    (noInsert : c.method ∉ [.insertCustomer, .insertSegment]) : KeyedIn ids (Memory.answer c now m).2 := by
  have changes := changes c now m
  generalize (Memory.answer c now m).2 = m' at changes ⊢
  cases changes with
  | insertCustomer c => simp [Store.Call.method] at noInsert
  | insertSegment free => simp [Store.Call.method] at noInsert
  | nothing => exact keyed
  | updateCustomer live => exact keyed.insertCustomer (keyed.customer live).2
  | deleteCustomer id =>
    refine ⟨fun {other c} live => ?_, keyed.segment⟩
    rw [Table.get?_erase] at live
    split at live
    · cases live
    · exact keyed.customer live
  | removeSegmentFromAll segment =>
    refine ⟨fun {id c} live => ?_, keyed.segment⟩
    rw [Table.get?_map] at live
    obtain ⟨before, known, rfl⟩ := Option.map_eq_some_iff.1 live
    refine ⟨?_, (keyed.customer known).2⟩
    unfold Customer.strip
    split <;> exact (keyed.customer known).1
  | @updateSegment s old names live moved =>
    exact keyed.insertSegment (s := { s with audienceSize := old.audienceSize }) (keyed.segment live).2 names
  | deleteSegment live =>
    refine ⟨keyed.customer, fun {other s'} kept => ?_⟩
    rw [Table.get?_erase] at kept
    split at kept
    · cases kept
    · exact keyed.segment kept
  | setAudienceSize id size | incrementAudienceSize id delta => exact keyed.revise fun s => rfl

end Memory.KeyedIn

namespace World

/-- The identifiers handed out so far. -/
def issuedIds {σ : Type} (w : World σ) : List Uuid :=
  w.issued.map Prod.snd

/-- Every record lies under its own identifier, which was handed out. -/
def Keyed (w : World Memory) : Prop :=
  w.state.KeyedIn w.issuedIds

theorem Follows.issuedIds {σ : Type} {w w' : World σ} (follows : w.Follows w') : w.issuedIds <:+ w'.issuedIds := by
  obtain ⟨later, appended⟩ := follows.issued
  exact ⟨later.map Prod.snd, by rw [World.issuedIds, World.issuedIds, ← appended, List.map_append]⟩

theorem Keyed.of_state {w w' : World Memory} (keyed : w.Keyed) (follows : w.Follows w')
    (state : w'.state = w.state) : w'.Keyed := by
  unfold Keyed
  rw [state]
  exact keyed.mono follows.issuedIds.subset

end World

namespace Service

open Store

variable {failing : List Method} {w w' : World Memory} {α : Type}

theorem runInMemory_keyed (failing : List Method) {task : Action α}
    (only : task.AsksOnly (Effect.Within fun c => c.method ∉ [.insertCustomer, .insertSegment])) (keyed : w.Keyed) :
    (runInMemory failing task w).2.Keyed := by
  have kept := runInMemory_related (R := fun m m' => ∀ ids, m.KeyedIn ids → m'.KeyedIn ids) (fun _ _ keyed => keyed)
    (fun _ _ _ first rest ids keyed => rest ids (first ids keyed))
    (fun c now m allowed ids keyed => keyed.answer allowed) failing only w
  exact (kept _ keyed).mono (runInMemory_follows failing task w).issuedIds.subset

theorem Ends.keyed {op : Operation α} {o : Except Error α} (ends : Ends failing op w o w')
    (only : CallsOnly (fun c => c.method ∉ [.insertCustomer, .insertSegment]) op) (keyed : w.Keyed) : w'.Keyed := by
  have := runInMemory_keyed failing only.asks keyed
  rwa [show runInMemory failing op.run w = (o, w') from ends] at this

theorem createSegment_keyed {request : NewSegment} {createdBy : String} {o : Except Error Segment}
    (ends : Ends failing (Segments.create request createdBy) w o w') (keyed : w.Keyed) : w'.Keyed := by
  rcases Segments.create_cases ends with ⟨follows, state, _⟩ |
    ⟨_, _, s, now, mid, rfl, follows, issued, state, ends⟩
  · exact keyed.of_state follows state
  · refine Ends.keyed ends (recount_calls (fun _ => ?_) (fun _ _ => ?_) (fun _ => ?_) _ _) ?_
    · simp [Call.method]
    · simp [Call.method]
    · simp [Call.method]
    · unfold World.Keyed
      rw [state]
      refine (keyed.mono follows.issuedIds.subset).insertSegment ?_ _
      rw [World.issuedIds, issued]
      exact List.mem_cons_self

theorem createCustomer_keyed {request : NewCustomer} {o : Except Error CustomerChange}
    (ends : Ends failing (Customers.create request) w o w') (keyed : w.Keyed) : w'.Keyed := by
  rcases Customers.create_cases ends with ⟨follows, state, _⟩ |
    ⟨_, c, now, mid, rfl, follows, issued, state, _, rfl⟩
  · exact keyed.of_state follows state
  · refine runInMemory_keyed failing (Audience.applyDelta_asksOnly (fun _ _ => ?_) _ _) ?_
    · simp [Call.method]
    · unfold World.Keyed
      rw [state]
      refine (keyed.mono follows.issuedIds.subset).insertCustomer ?_
      rw [World.issuedIds, issued]
      exact List.mem_cons_self

/-- Records lie under their own identifiers whatever fails while a request is served. -/
theorem serve_keyed (r : Request) (keyed : w.Keyed) : (serve failing r w).2.Keyed := by
  by_cases inserts : .insertCustomer ∈ r.footprint ∨ .insertSegment ∈ r.footprint
  · cases r with
    | createSegment request createdBy => exact createSegment_keyed (Ends.serve failing (.createSegment request createdBy) w) keyed
    | createCustomer request => exact createCustomer_keyed (Ends.serve failing (.createCustomer request) w) keyed
    | importCustomers requests =>
      exact Customers.importFrom_related (R := fun w w' => w.Keyed → w'.Keyed) (fun _ keyed => keyed)
        (fun _ _ _ first rest keyed => rest (first keyed)) (fun _ _ _ _ created => createCustomer_keyed created)
        (Ends.serve failing (.importCustomers requests) w) keyed
    | previewAudience _ | listSegments | getSegment _ | summarizeSegment _ | updateSegment _ _ | deleteSegment _
    | listCustomers | getCustomer _ | updateCustomer _ _ | deleteCustomer _ => simp [Request.footprint] at inserts
  · refine runInMemory_keyed failing (operation_calls fun c member => ?_).asks keyed
    intro forbidden
    rcases List.mem_cons.1 forbidden with same | forbidden
    · exact inserts (.inl (same ▸ member))
    · exact inserts (.inr (List.mem_singleton.1 forbidden ▸ member))

theorem serveAll_concat (steps : List Step) (step : Step) (w : World Memory) :
    serveAll (steps ++ [step]) w = (serve step.failing step.request (serveAll steps w)).2 := by
  rw [serveAll, List.foldl_append]
  rfl

theorem serveAll_follows (steps : List Step) (w : World Memory) : w.Follows (serveAll steps w) := by
  induction steps generalizing w with
  | nil => exact .refl w
  | cons step rest ih => exact (runInMemory_follows _ _ _).trans (ih _)

theorem serveAll_keyed (steps : List Step) (keyed : w.Keyed) : (serveAll steps w).Keyed := by
  induction steps generalizing w with
  | nil => exact keyed
  | cons step rest ih => exact ih (serve_keyed step.request keyed)

end Service

end CustomerSegments
