import CustomerSegments.Proofs.ContestedSwaps
import CustomerSegments.Proofs.RedisSegments

namespace CustomerSegments.Redis

variable {α : Type} {d : Json.Decoder α} {a : α} {text : String} {l : Layout} {s s' : Server} {id : Uuid}

open Server (Keeps)

/-- A record whose text is read back is fetched from the slot that it was put in, and the other slots are as before. -/
theorem put_fetch (l : Layout) (slot : Slot) (s : Server) (read : d.decodeText text = .ok a) :
    ∃ s', Settles (put (l.key slot) text) s (.ok ()) s' ∧ Settles (fetch d (l.key slot)) s' (.ok (some a)) s' ∧
      Keeps l [slot] s s' := by
  obtain ⟨s', written, stored, keeps⟩ := Settles.set l slot s text
  have loads : Loads d s' (l.key slot) (some a) := ⟨text, stored, read⟩
  exact ⟨s', written, fetch_settles loads, keeps⟩

/-- The size of a segment is the one that is stored for its id, or zero. -/
theorem audienceSize_settles {rows : Table String String} {size : Int64} (stored : s.hash? l.audienceKey = .ok rows)
    (sized : (rows.get? id.text).elim (.ok 0) size? = .ok size) : Settles (l.audienceSize id) s (.ok size) s := by
  have read := Settles.hget stored id.text
  cases found : rows.get? id.text with
  | none =>
    rw [found] at read sized
    cases sized
    exact read.bind (.pure 0)
  | some text =>
    rw [found] at read sized
    exact read.bind (.settled sized)

theorem getSegment_settles {g : Segment} {size : Int64} (found : Settles (l.segmentRecord id) s (.ok (some g)) s)
    (sized : Settles (l.audienceSize id) s (.ok size) s) :
    Settles (l.getSegment id) s (.ok (some { g with audienceSize := size })) s :=
  found.bind (sized.bind (.pure _))

/-- Stored records survive. A customer or a segment whose numbers are read back as they are written, and which is not
too deep to be read, is decoded from its text as it was, whatever it has and whatever it lacks. The free-form members
of a customer may stand in the text in any order. So on every server the customer that is put under its key is the one
that is got from there, and the segment likewise, apart from the audience size, which is the one that is stored beside
it. -/
theorem records_survive_storage :
    (∀ (c : Customer) (attributes : List (String × Json)), c.toJson.Storable → attributes.Perm c.profile.attributes →
        Customer.decoder.decodeText (c.listing attributes).text = .ok c ∧
          ∀ (l : Layout) (s : Server),
            ∃ s', Settles (put (l.customerKey c.id.text) (c.listing attributes).text) s (.ok ()) s' ∧
              Settles (l.getCustomer c.id) s' (.ok (some c)) s') ∧
      ∀ g : Segment, g.toJson.Storable →
        Segment.decoder.decodeText g.text = .ok g ∧
          ∀ (l : Layout) (s : Server), ∃ s', Settles (put (l.segmentKey g.id.text) g.text) s (.ok ()) s' ∧
            Settles (l.segmentRecord g.id) s' (.ok (some g)) s' ∧
            ∀ (rows : Table String String) (size : Int64), s.hash? l.audienceKey = .ok rows →
              (rows.get? g.id.text).elim (.ok 0) size? = .ok size →
              Settles (l.getSegment g.id) s' (.ok (some { g with audienceSize := size })) s' := by
  constructor
  · intro c attributes storable listed
    have read := Customer.decodeText_listing storable listed
    refine ⟨read, fun l s => ?_⟩
    obtain ⟨s', written, fetched, -⟩ := put_fetch l (.customer c.id) s read
    exact ⟨s', written, fetched⟩
  · intro g storable
    have read := Segment.decodeText_text storable
    refine ⟨read, fun l s => ?_⟩
    obtain ⟨s', written, fetched, keeps⟩ := put_fetch l (.segment g.id) s read
    have found : Settles (l.segmentRecord g.id) s' (.ok (some g)) s' := fetched
    refine ⟨s', written, found, fun rows size stored sized => ?_⟩
    have kept : s'.hash? (l.key .audience) = s.hash? (l.key .audience) := keeps.hash? (by simp)
    exact getSegment_settles found (audienceSize_settles (kept.trans stored) sized)

/-- A customer from the first instant of the calendar, last seen in its last leap second, with a name to be escaped and
free-form members inside one another. -/
def timeless : Customer where
  id := .counting 1
  profile :=
    { Profile.named "Ada \"the\\ Ω\"\n\u0001" with
      email := some "", totalSpend := ⟨-1234.5, by decide +kernel⟩, visitCount := 18446744073709551615,
      lastVisit := some ⟨8210266876799, 1999999999, by decide, by decide, by decide, by decide⟩,
      status := .churned, tags := ["vip", "vip"],
      attributes := [("a", .array [.null, .object [("b", .bool true)]]),
        ("n", .number (.integer ⟨-9223372036854775808, by decide⟩))],
      segments := .ofList [.counting 3, .counting 2] }
  createdAt := ⟨-8334601228800, 1, by decide, by decide, by decide, by decide⟩
  updatedAt := .epoch

/-- A segment with a rule that asks for nothing and a rule in a group. -/
def grouped : Segment where
  id := .counting 2
  name := ""
  description := none
  rules := [.single "email" "exists" .null, ⟨"tags", "in", .array [.string "vip"], some "g", some "OR"⟩]
  audienceSize := 3
  isActive := false
  createdAt := .epoch
  updatedAt := .epoch
  createdBy := "ops"

theorem records_survive_storage_at_both_ends_of_time :
    let l : Layout := ⟨"p", 1⟩
    let s : Server := .insert .empty l.audienceKey (.hash (.insert .empty grouped.id.text "-7"))
    (∃ s', Settles (put (l.customerKey timeless.id.text) (timeless.listing timeless.profile.attributes.reverse).text) s
        (.ok ()) s' ∧ Settles (l.getCustomer timeless.id) s' (.ok (some timeless)) s') ∧
      ∃ s', Settles (put (l.segmentKey grouped.id.text) grouped.text) s (.ok ()) s' ∧
        Settles (l.getSegment grouped.id) s' (.ok (some { grouped with audienceSize := -7 })) s' := by
  intro l s
  have spent : (Number.double timeless.profile.totalSpend).ReadsBack := by
    have read : (Json.ofText? (Json.number (.double timeless.profile.totalSpend)).text).toOption =
        some (.number (.double timeless.profile.totalSpend)) := by
      decide +kernel
    exact eq_ok_of_toOption read
  have least : (Number.integer ⟨-9223372036854775808, by decide⟩).ReadsBack := Number.readsBack_integer _
  have free : (Json.object timeless.profile.attributes).Nestable := by
    refine ⟨⟨⟨trivial, ⟨trivial, trivial⟩, trivial⟩, least, trivial⟩, ⟨by decide, ?_⟩, by decide⟩
    exact ⟨⟨trivial, ⟨by decide, trivial, trivial⟩, trivial⟩, trivial, trivial⟩
  have rules : (Json.array (grouped.rules.map Rule.toJson)).Nestable := by
    have shape : grouped.rules.map Rule.toJson =
        [.object [("field", .string "email"), ("operator", .string "exists"), ("value", .null)],
          .object [("field", .string "tags"), ("groupId", .string "g"), ("groupOperator", .string "OR"),
            ("operator", .string "in"), ("value", .array [.string "vip"])]] := by
      decide +kernel
    rw [shape]
    refine ⟨by simp [Json.NumbersReadBack, Json.ItemsReadBack, Json.MembersReadBack], ⟨?_, ?_, trivial⟩, by decide⟩
    · exact ⟨by decide, trivial, trivial, trivial, trivial⟩
    · exact ⟨by decide, trivial, trivial, trivial, trivial, ⟨trivial, trivial⟩, trivial⟩
  obtain ⟨customers, segments⟩ := records_survive_storage
  obtain ⟨-, stored⟩ := segments grouped (Segment.storable_iff.2 rules)
  obtain ⟨s', written, -, sized⟩ := stored l s
  have sizes : s.hash? l.audienceKey = .ok (.insert .empty grouped.id.text "-7") := by
    rw [Server.hash?, Table.get?_insert, if_pos rfl]
  have size : ((Table.insert .empty grouped.id.text "-7").get? grouped.id.text).elim (.ok 0) size? = .ok (-7) :=
    eq_ok_of_toOption (by decide +kernel)
  obtain ⟨-, put⟩ := customers timeless _ (Customer.storable_iff.2 ⟨spent, free⟩) (List.reverse_perm _)
  exact ⟨put l s, s', written, sized _ (-7) sizes size⟩

end CustomerSegments.Redis
