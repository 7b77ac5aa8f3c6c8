/-
The index and what is rendered at it. A press of the last button writes the index
-1 when there are no pages, and one behind pages that were taken out moves an index
that is out of range. Neither is ever shown: each way of showing a page cuts the
index into range first. So wherever a page is shown, there is one, and that is the
page whose number the footer says (`index_and_pages`).

The index is a natural number here. That this is what the arithmetic of numbers
comes to is part of the theorem: each move leaves it a number that the program
would write (`Sets`).
-/
import Folio.Proofs.Cursor
import Folio.Proofs.Room.Disabling
import Folio.Proofs.Room.Leafing

namespace Folio

/-! ## Rendering -/

/-- An embed is the page at the index of a paginator, with what its configuration
adds and the number of the page, and the rows are its controls there. -/
structure ShowsPage (pg : Paginator) (embed : Embed) (rows : ComponentRows) : Prop where
  inside : pg.index < pg.pages.length
  page : ∃ page own, pg.pages[pg.index]? = some page ∧ page.toEmbed = .ok own ∧
    embed = ((own.withTitleByDefault pg.config.defaultTitle).withColorByDefault pg.config.defaultColor).withFooter
      ("Page " ++ toString (pg.index + 1) ++ "/" ++ toString pg.pages.length)
  footer : embed.fields.member "footer" =
    .record [("text", .text ("Page " ++ toString (pg.index + 1) ++ "/" ++ toString pg.pages.length))]
  controls : pg.layout.render (pg.status = .stopped) = .ok rows

theorem showsPage_of_payload {pg : Paginator} {embed : Embed} {rows : ComponentRows}
    (drawn : pg.payload = .ok (.page embed rows)) : ShowsPage pg embed rows := by
  rw [Paginator.payload, Layout.payload] at drawn
  split at drawn
  · cases drawn
  next page hpage =>
    obtain ⟨shown, hshown, drawn⟩ := bind_eq_ok_iff.1 drawn
    obtain ⟨rows', hrows, drawn⟩ := bind_eq_ok_iff.1 drawn
    obtain ⟨rfl, rfl⟩ := Payload.page.inj (Except.ok.inj drawn)
    obtain ⟨own, hown, rfl⟩ := map_eq_ok_iff.1 hshown
    refine ⟨(List.getElem?_eq_some_iff.1 hpage).1, ⟨page, own, hpage, hown, rfl⟩, ?_, hrows⟩
    rw [Embed.withFooter, Embed.set, Record.member, Table.get?_put_self]
    rfl

namespace Room

variable {room : Room} {p : Nat} {pg pg' : Paginator} {m : Move}

/-- The index stays below a bound that is above all page counts. -/
theorem index_lt_after {bound : Nat} (below : ∀ pg, room.paginator? p = some pg → pg.index < bound)
    (count : ∀ pg, room.paginator? p = some pg → pg.pages.length ≤ bound) (pos : 0 < bound)
    (hp' : (room.after m).paginator? p = some pg') : pg'.index < bound := by
  rcases paginator?_before hp' with ⟨pg, hp⟩ | ⟨first, -⟩
  · have old := below pg hp
    have length := count pg hp
    obtain ⟨pg₁, hp₁, leafed⟩ := leafed_after hp m
    obtain rfl := Option.some.inj (hp'.symm.trans hp₁)
    have cut : ∀ i : Nat, min i (pg.pages.length - 1) < bound := fun i => by omega
    cases leafed with
    | same h => exact (Paginator.index_of_leaf h).trans_lt old
    | refitted _ h => exact (Paginator.index_of_leaf h).trans_lt old
    | cut _ h => exact (Paginator.index_of_leaf h).trans_lt (cut _)
    | set _ h => exact (Paginator.index_of_leaf h).trans_lt (cut _)
  · rw [first]
    exact pos

/-! ## Runs -/

/-- From no paginators on, the index stays below a bound that is above all page counts. -/
theorem index_lt_throughout {bound : Nat} {moves : List Move} (none : room.paginators = []) (pos : 0 < bound)
    (count : ∀ ms, ms <+: moves → ∀ pg, (room.afterAll ms).paginator? p = some pg → pg.pages.length ≤ bound)
    (ms : List Move) (hms : ms <+: moves) (hp : (room.afterAll ms).paginator? p = some pg) : pg.index < bound := by
  induction ms using List.reverseRecOn generalizing pg with
  | nil =>
    rw [afterAll_nil, paginator?, none] at hp
    cases hp
  | append_singleton ms m ih =>
    have before : ms <+: moves := (List.prefix_append ms [m]).trans hms
    have step : room.afterAll (ms ++ [m]) = (room.afterAll ms).after m := afterAll_append room ms [m]
    rw [step] at hp
    exact index_lt_after (fun pg hp => ih before hp) (count ms before) pos hp

end Room

end Folio
