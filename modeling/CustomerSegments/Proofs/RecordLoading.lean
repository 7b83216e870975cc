import CustomerSegments.Proofs.Represents
import CustomerSegments.Proofs.SlotCommands

namespace CustomerSegments

theorem Table.filterMap_get?_keys {ν : Type} (t : Table Uuid ν) : t.keys.filterMap t.get? = t.values := by
  suffices each : ∀ l : List (Uuid × ν), (∀ e ∈ l, t.get? e.1 = some e.2) → (l.map (·.1)).filterMap t.get? = l.map (·.2) from
    each t.entries fun e mem => Table.get?_eq_some_iff.2 mem
  intro l found
  induction l with
  | nil => rfl
  | cons e rest ih =>
    rw [List.map_cons, List.filterMap_cons_some (found e List.mem_cons_self),
      ih fun e mem => found e (List.mem_cons_of_mem _ mem), List.map_cons]

namespace Redis

variable {α : Type} {d : Json.Decoder α} {s : Server}

/-- No element is lost between the pages, and none is repeated. -/
theorem flatten_pages (size : Nat) (l : List α) : (pages size l).flatten = l := by
  fun_induction pages size l with
  | case1 l bare => exact (List.isEmpty_iff.1 bare).symm
  | case2 l some ih => rw [List.flatten_cons, ih, List.take_append_drop]

section

variable (s : Server) (d : Json.Decoder α) (keyOf : String → String)

/-- The texts of the records that are stored under the keys of some ids. -/
def textsOf (ids : List String) : List String :=
  ids.filterMap fun x => ((s.string? (keyOf x)).toOption).join

/-- The records of some ids, as one command loads them. -/
theorem mapM_page (ids : List String) :
    (((ids.map keyOf).map fun key => ((s.string? key).toOption).join).filterMap id).mapM (decode d) =
      (textsOf s keyOf ids).mapM (decode d) := by
  rw [List.map_map, List.filterMap_map]
  rfl

/-- What comes of all pages is what comes of the ids on them, one page after the other. -/
theorem loadPages_any (pages : List (List String)) :
    Settles (loadPages d (pages.map (·.map keyOf))) s ((textsOf s keyOf pages.flatten).mapM (decode d)) s := by
  induction pages with
  | nil => exact .pure _
  | cons ids rest ih =>
    have both : textsOf s keyOf (ids :: rest).flatten = textsOf s keyOf ids ++ textsOf s keyOf rest.flatten := by
      rw [List.flatten_cons, textsOf, List.filterMap_append]
      rfl
    rw [both, List.mapM_append]
    refine .send_bind rfl ?_
    cases first : (textsOf s keyOf ids).mapM (decode d) with
    | error e => exact (Settles.settled ((mapM_page s d keyOf ids).trans first)).bind_error
    | ok records =>
      refine (Settles.settled ((mapM_page s d keyOf ids).trans first)).bind ?_
      cases others : (textsOf s keyOf rest.flatten).mapM (decode d) with
      | error e =>
        rw [others] at ih
        exact ih.bind_error
      | ok more =>
        rw [others] at ih
        exact ih.bind (.pure _)

end

/-- What is stored under a key: nothing, or the text of a record. -/
def Loads (d : Json.Decoder α) (s : Server) (key : String) : Option α → Prop
  | none => s.string? key = .ok none
  | some a => ∃ text, s.string? key = .ok (some text) ∧ d.decodeText text = .ok a

theorem decode_of_ok {text : String} {a : α} (read : d.decodeText text = .ok a) : decode d text = .ok a := by
  rw [decode, read]

section

variable {keyOf : String → String} {records : String → Option α}

/-- The texts under the keys of some ids are those of their records. -/
theorem mapM_decode {ids : List String} (loads : ∀ id ∈ ids, Loads d s (keyOf id) (records id)) :
    (textsOf s keyOf ids).mapM (decode d) = .ok (ids.filterMap records) := by
  induction ids with
  | nil => rfl
  | cons id rest ih =>
    have first := loads id List.mem_cons_self
    have others := ih fun id mem => loads id (List.mem_cons_of_mem _ mem)
    rw [textsOf, List.filterMap_cons]
    cases found : records id with
    | none =>
      rw [found] at first
      rw [show s.string? (keyOf id) = .ok none from first, List.filterMap_cons_none found]
      exact others
    | some a =>
      rw [found] at first
      obtain ⟨text, stored, read⟩ := first
      rw [stored, List.filterMap_cons_some found]
      change (text :: textsOf s keyOf rest).mapM (decode d) = _
      rw [List.mapM_cons, decode_of_ok read, others]
      rfl

/-- The records of the ids on all pages, in the order of the pages. -/
theorem loadPages_settles (pages : List (List String))
    (loads : ∀ id ∈ pages.flatten, Loads d s (keyOf id) (records id)) :
    Settles (loadPages d (pages.map (·.map keyOf))) s (.ok (pages.flatten.filterMap records)) s := by
  have loaded := loadPages_any s d keyOf pages
  rwa [mapM_decode loads] at loaded

/-- The records of the ids in a set, in the order of the set, whatever the size of a page. -/
theorem loadAll_settles {l : Layout} {set : String} {ids : Table String Unit} (stored : s.set? set = .ok ids)
    (loads : ∀ id ∈ ids.keys, Loads d s (keyOf id) (records id)) :
    Settles (loadAll l d set keyOf) s (.ok (ids.keys.filterMap records)) s := by
  have loaded := loadPages_settles (s := s) (pages l.pageSize ids.keys) (by rwa [flatten_pages])
  rw [flatten_pages] at loaded
  exact (Settles.smembers stored).bind loaded

end

/-- The records of the ids of a table, each under the key of its id, are all loaded once. -/
theorem loadAll_table {ν : Type} {l : Layout} {set : String} {keyOf : String → String} {ids : Table String Unit}
    {t : Table Uuid ν} {records : Uuid → Option α} (stored : s.set? set = .ok ids) (byText : ids.ByText t fun _ => ())
    (loads : ∀ id : Uuid, Loads d s (keyOf id.text) (records id)) :
    ∃ loaded, Settles (loadAll l d set keyOf) s (.ok loaded) s ∧ loaded.Perm (t.keys.filterMap records) := by
  have each : ∀ x ∈ ids.keys, Loads d s (keyOf x) ((Uuid.ofText? x).bind records) := by
    intro x mem
    obtain ⟨id, _, rfl⟩ := List.mem_map.1 (byText.keys_perm.mem_iff.1 mem)
    rw [Uuid.ofText?_text]
    exact loads id
  refine ⟨_, loadAll_settles stored each, ?_⟩
  have listed := byText.keys_perm.filterMap fun x => (Uuid.ofText? x).bind records
  rw [List.filterMap_map] at listed
  have same : (fun x => (Uuid.ofText? x).bind records) ∘ Uuid.text = records := by
    funext id
    rw [Function.comp_apply, Uuid.ofText?_text, Option.bind_some]
  rwa [same] at listed

end Redis

end CustomerSegments
