import TelegramMcp.Updater.Mapping

/-!
# The media of a message

Which of the media a message carries `extractMedia` stores. The first key of the table that is
present decides. The Bot API sends an animation with a document of the same file, and the table has
the document before the animation (`mediaFaithful_iff`).
-/

namespace TelegramMcp.Updater

open Rust

/-! ## The largest photo -/

/-- An element with the largest key, and the last of them. -/
def LastMax {α : Type} (key : α → Int) (xs : List α) (m : α) : Prop :=
  ∃ before after, xs = before ++ m :: after ∧ (∀ x ∈ before, key x ≤ key m) ∧
    ∀ x ∈ after, key x < key m

namespace LastMax

variable {α : Type} {key : α → Int} {xs : List α} {m x y : α}

/-- What is at most as large as the next element is passed over. -/
theorem cons (h : LastMax key (y :: xs) m) (hxy : key x ≤ key y) :
    LastMax key (x :: y :: xs) m := by
  obtain ⟨before, after, heq, hbefore, hafter⟩ := h
  refine ⟨x :: before, after, by rw [heq]; rfl, ?_, hafter⟩
  rw [List.forall_mem_cons]
  refine ⟨?_, hbefore⟩
  cases before with
  | nil =>
    cases heq
    exact hxy
  | cons z before =>
    cases heq
    exact hxy.trans (hbefore y List.mem_cons_self)

/-- What is smaller than the best so far may be among the elements or not: the last of the largest
stays the same. -/
theorem insert (h : LastMax key (x :: xs) m) (hyx : key y < key x) :
    LastMax key (x :: y :: xs) m := by
  obtain ⟨before, after, heq, hbefore, hafter⟩ := h
  cases before with
  | nil =>
    cases heq
    refine ⟨[], y :: xs, rfl, List.forall_mem_nil _, ?_⟩
    rw [List.forall_mem_cons]
    exact ⟨hyx, hafter⟩
  | cons z before =>
    cases heq
    refine ⟨x :: y :: before, after, rfl, ?_, hafter⟩
    have hx := hbefore x List.mem_cons_self
    intro z hz
    rcases List.mem_cons.1 hz with rfl | hz
    · exact hx
    · rcases List.mem_cons.1 hz with rfl | hz
      · omega
      · exact hbefore z (List.mem_cons_of_mem _ hz)

end LastMax

/-- `maxByKey` takes the last of the elements with the largest key. -/
theorem maxByKey_lastMax {α : Type} (key : α → Int) {xs : List α} (h : xs ≠ []) :
    ∃ m, maxByKey key xs = some m ∧ LastMax key xs m := by
  obtain ⟨x, xs, rfl⟩ := List.exists_cons_of_ne_nil h
  refine ⟨_, rfl, ?_⟩
  clear h
  induction xs generalizing x with
  | nil => exact ⟨[], [], rfl, List.forall_mem_nil _, List.forall_mem_nil _⟩
  | cons y xs ih =>
    rw [List.foldl_cons]
    split
    · next hle => exact (ih y).cons hle
    · next hlt => exact (ih x).insert (by omega)

/-! ## What a message carries -/

/-- The message object of an update, under the first of the four keys that it has. -/
def messageOf (update : Json) : Option Json :=
  (update.get "message").or ((update.get "edited_message").or
    ((update.get "channel_post").or (update.get "edited_channel_post")))

/-- What is stored of the media of a message: the kind, the file and the object itself. -/
abbrev Media := Option String × Option String × Option Json

/-- The kind and the object of a medium, as the Bot API puts it into a message. -/
def mediumOf (kind : String) (v : Json) : Media :=
  (some kind, (v.get "file_id").bind Json.asStr, some v)

/-- The size of a photo; one without a size counts as 0. -/
def fileSize (p : Json) : Int := ((p.get "file_size").bind Json.asI64).elim 0 Subtype.val

/-- The media that a message may have, by the fields of the Bot API they come in. -/
def mediaKinds : List String :=
  ["photo", "document", "voice", "video", "animation", "audio", "sticker"]

/-- The media stored are those the message carries. Of a photo without sizes, or one that is no
array, only the kind is stated: it has no file to be stored. -/
structure MediaFaithful (msg : Json) (media : Media) : Prop where
  /-- An animation comes with a document of the same file. -/
  animation : ∀ v, msg.get "animation" = some v → media = mediumOf "animation" v
  /-- A medium that comes alone. -/
  single : ∀ kind ∈ mediaKinds, ∀ v, msg.get kind = some v →
    (∀ other ∈ mediaKinds, other ≠ kind → msg.get other = none) →
    if kind = "photo" then media.1 = some "photo" else media = mediumOf kind v
  /-- A photo is stored as its largest size, and as the last of these. -/
  photo : ∀ sizes, msg.get "photo" = some (.arr sizes) → sizes ≠ [] →
    msg.get "animation" = none → ∃ p, LastMax fileSize sizes p ∧ media = mediumOf "photo" p

/-- None of the keys before the animation's in the table is present with it. -/
def AnimationFirst (msg : Json) : Prop :=
  msg.get "animation" = none ∨ ∀ key ∈ ["photo", "document", "voice", "video"], msg.get key = none

/-! ## When the media are faithful -/

/-- What is stored for a key of the table and the value the message has there. -/
def mediaAt (key : String) (v : Json) : Media :=
  if key = "photo" then (some key, photoMedia v) else mediumOf key v

/-- Of an array of sizes, the largest is the one whose file is stored. -/
theorem photoMedia_arr {sizes : List Json} {p : Json} (hp : maxByKey fileSize sizes = some p) :
    photoMedia (.arr sizes) = ((p.get "file_id").bind Json.asStr, some p) := by
  unfold fileSize at hp
  simp only [photoMedia, Json.asArray, hp]

section
variable {msg : Json} {kind : String} {before after : List (String × String)}

/-- A key of the table with its kind and its object, if the message has it. -/
def present (msg : Json) (key : String × String) : Option (String × String × Json) :=
  (msg.get key.1).map fun v => (key.1, key.2, v)

/-- The first key of the table that is present decides. -/
theorem extractMedia_of_present {key : String} {v : Json}
    (h : mediaKeys.findSome? (present msg) = some (key, kind, v)) :
    extractMedia msg = (some kind, (mediaAt key v).2) := by
  unfold extractMedia
  split
  · next hfound =>
    cases hfound.symm.trans h
    rw [mediaAt, mediumOf, apply_ite Prod.snd]
  · next hnone => cases hnone.symm.trans h

/-- The first key of the table that the message has decides the kind. -/
theorem extractMedia_of_first (hkeys : mediaKeys = before ++ (kind, kind) :: after)
    (hbefore : ∀ key ∈ before, msg.get key.1 = none) {v : Json} (hv : msg.get kind = some v) :
    extractMedia msg = mediaAt kind v := by
  have hnone : before.findSome? (present msg) = none := by
    rw [List.findSome?_eq_none_iff]
    intro key hkey
    rw [present, hbefore key hkey]
    rfl
  have hfirst : mediaKeys.findSome? (present msg) = some (kind, kind, v) := by
    rw [hkeys, List.findSome?_append, hnone, Option.none_or, List.findSome?_cons, present, hv]
    rfl
  rw [extractMedia_of_present hfirst, mediaAt, mediumOf]
  split <;> rfl

/-- No key that comes before the one that decided is present. -/
theorem get_eq_none_of_kind (hkeys : mediaKeys = before ++ (kind, kind) :: after)
    (hne : ∀ key ∈ before, key.2 ≠ kind) (h : (extractMedia msg).1 = some kind) :
    ∀ key ∈ before, msg.get key.1 = none := by
  cases hfirst : before.findSome? (present msg) with
  | none =>
    intro key hkey
    exact Option.map_eq_none_iff.1 (List.findSome?_eq_none_iff.1 hfirst key hkey)
  | some found =>
    obtain ⟨key, hkey, hfound⟩ := List.exists_of_findSome?_eq_some hfirst
    obtain ⟨v, -, rfl⟩ := Option.map_eq_some_iff.1 hfound
    have hall : mediaKeys.findSome? (present msg) = some (key.1, key.2, v) := by
      rw [hkeys, List.findSome?_append, hfirst]
      rfl
    rw [extractMedia_of_present hall] at h
    exact absurd (Option.some.inj h) (hne key hkey)

end

/-- The table has each of the kinds, under the key of its name, and nothing else. -/
theorem mediaKeys_eq : mediaKeys = mediaKinds.map fun kind => (kind, kind) := rfl

/-- The media are faithful exactly when no key before the animation's hides it. -/
theorem extractMedia_faithful_iff (msg : Json) :
    MediaFaithful msg (extractMedia msg) ↔ AnimationFirst msg := by
  have hanimation : mediaKeys = [("photo", "photo"), ("document", "document"), ("voice", "voice"),
    ("video", "video")] ++ ("animation", "animation") :: [("audio", "audio"),
    ("sticker", "sticker")] := rfl
  refine ⟨?_, ?_⟩
  · intro h
    cases hv : msg.get "animation" with
    | none => exact .inl hv
    | some v =>
      refine .inr ?_
      have hkind : (extractMedia msg).1 = some "animation" := congrArg Prod.fst (h.animation v hv)
      simpa using get_eq_none_of_kind hanimation (by decide) hkind
  · intro h
    refine ⟨?_, ?_, ?_⟩
    · intro v hv
      have hnone := h.resolve_left (by rw [hv]; exact nofun)
      exact extractMedia_of_first hanimation (by simpa using hnone) hv
    · intro kind hkind v hv halone
      have hpresent : (kind, kind) ∈ mediaKeys := by
        rw [mediaKeys_eq]
        exact List.mem_map_of_mem hkind
      obtain ⟨before, after, hkeys, hnot⟩ := List.eq_append_cons_of_mem hpresent
      rw [extractMedia_of_first hkeys ?_ hv, mediaAt]
      · split
        · next hphoto => rw [hphoto]
        · rfl
      · intro key hkey
        have hmem : key ∈ mediaKeys := hkeys ▸ List.mem_append_left _ hkey
        rw [mediaKeys_eq] at hmem
        obtain ⟨other, hother, rfl⟩ := List.mem_map.1 hmem
        refine halone other hother ?_
        rintro rfl
        exact hnot hkey
    · intro sizes hsizes hne _
      obtain ⟨p, hp, hlast⟩ := maxByKey_lastMax fileSize hne
      refine ⟨p, hlast, ?_⟩
      have hphoto : mediaKeys = [] ++ ("photo", "photo") :: mediaKeys.tail := rfl
      rw [extractMedia_of_first hphoto (List.forall_mem_nil _) hsizes, mediaAt, if_pos rfl,
        photoMedia_arr hp]
      rfl

/-- `mapUpdate` stores the media that `extractMedia` finds in the message object of the update. -/
theorem mapUpdate_media {update msg : Json} {chat : ChatInfo} {stored : StoredMessage}
    (hmsg : messageOf update = some msg) (h : mapUpdate update = some (chat, stored)) :
    (stored.mediaKind, stored.mediaFileId, stored.mediaMeta) = extractMedia msg := by
  simp only [mapUpdate, Option.bind_eq_bind, Option.bind_eq_some_iff, Option.some.injEq,
    Prod.mk.injEq] at h
  obtain ⟨_, hobj, _, -, _, -, _, -, _, -, _, -, _, -, _, -, _, -, _, -, _, -, rfl, rfl⟩ := h
  cases hmsg.symm.trans hobj
  rfl

/-- The media stored for an update are those its message carries, exactly when no key that the table
has before the animation's hides it. Of a `photo` without sizes it is not said which file is
stored. -/
theorem mediaFaithful_iff {update msg : Json} {chat : ChatInfo} {stored : StoredMessage}
    (hmsg : messageOf update = some msg) (h : mapUpdate update = some (chat, stored)) :
    MediaFaithful msg (stored.mediaKind, stored.mediaFileId, stored.mediaMeta) ↔
      AnimationFirst msg := by
  rw [mapUpdate_media hmsg h]
  exact extractMedia_faithful_iff msg

/-- A message with these media, and the update that brings it. -/
def mediaMessage (media : List (String × Json)) : Json :=
  .obj ([("message_id", .int 7), ("date", .int 1000),
    ("chat", .obj [("id", .int 42), ("type", .str "private")])] ++ media)

/-- An update with such a message, as Telegram would deliver it. -/
def mediaUpdate (media : List (String × Json)) : Json :=
  .obj [("update_id", .int 1), ("message", mediaMessage media)]

/-- Two sizes of one photo. -/
def photoSizes : List Json :=
  [.obj [("file_id", .str "small"), ("file_size", .int 100)],
    .obj [("file_id", .str "big"), ("file_size", .int 9999)]]

/-- A photo in two sizes is stored as one, with the file of the larger size. -/
theorem mediaFaithful_photo :
    MediaFaithful (mediaMessage [("photo", .arr photoSizes)])
      (some "photo", some "big",
        some (.obj [("file_id", .str "big"), ("file_size", .int 9999)])) := by
  have hmsg : messageOf (mediaUpdate [("photo", .arr photoSizes)]) =
      some (mediaMessage [("photo", .arr photoSizes)]) := rfl
  exact (mediaFaithful_iff hmsg rfl).2 (.inl rfl)

/-- An animation and the document of the same file, as the Bot API sends them. -/
def animationMedia : List (String × Json) :=
  [("animation", .obj [("file_id", .str "gif"), ("duration", .int 3)]),
    ("document", .obj [("file_id", .str "gif")])]

/-- An animation, which has a document beside it for older clients, is stored as a document, as the
table has this key first. -/
theorem not_mediaFaithful_animation :
    ∃ chat stored, mapUpdate (mediaUpdate animationMedia) = some (chat, stored) ∧
      ¬ MediaFaithful (mediaMessage animationMedia)
        (stored.mediaKind, stored.mediaFileId, stored.mediaMeta) := by
  refine ⟨_, _, rfl, ?_⟩
  intro h
  have hkind := congrArg Prod.fst (h.animation _ rfl)
  exact absurd hkind (by decide)

end TelegramMcp.Updater
