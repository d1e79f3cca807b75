import Synapse.Core.SynapseCore
import Synapse.Foundations.Calls
import Synapse.Foundations.Runs

/-!
# Images of the driver and textures of the core

The hooks of `vkCreateImage` and `vkDestroyImage` for one registered device, any
number of calls at once, and a driver that may refuse a creation and may hand out a
handle again as soon as its image is destroyed.

Every live handle is held once: by the application, or by a call that has created
its image or is about to destroy it.  Its texture is registered while the
application holds it and while a destroy call has not yet unregistered it
(`Held`).

### Handles that come back

The driver may give a destroyed image's handle to the next one, so a handle names different
images over time, and the registry has no way to tell.  That no texture is lost or kept too
long rests on the order in the two hooks: a creation registers after the driver has created, a
destruction unregisters before the driver destroys.  Between these steps a handle is live
without a texture, and the invariant lists these handles apart from the others (`Held`, with
its two lists).

What a texture must be is said by the create info of the live image, field by field
(`Accurate`), not by the function that builds it.
-/

namespace Synapse.Layer

open Runs Calls

/-- What the core reads of a `VkImageCreateInfo`. -/
structure VkImageCreateInfo where
  width : UInt32
  height : UInt32
  mipLevels : UInt32
  deriving DecidableEq

/-- The residency of one mip level; the priority by its bits. -/
structure MipResidencyState where
  isResident : Bool
  dmaFenceId : UInt64
  currentPriority : UInt32
  deriving DecidableEq

/-- `TextureObject`, as far as the hooks fill it in. -/
structure TextureObject where
  textureId : UInt64
  width : UInt32
  height : UInt32
  mipCount : UInt32
  lastUsedFrame : UInt64
  residency : List MipResidencyState
  deriving DecidableEq

/-- The texture that `register_texture` builds. -/
def TextureObject.build (createInfo : VkImageCreateInfo) (textureId : UInt64) : TextureObject where
  textureId := textureId
  width := createInfo.width
  height := createInfo.height
  mipCount := createInfo.mipLevels
  lastUsedFrame := 0
  residency := List.replicate createInfo.mipLevels.toNat
    { isResident := false, dmaFenceId := 0, currentPriority := 0 }

/-- What a texture of an image is to say of the create info: the handle for an
identifier, the extent, and one mip level that is not resident for each one asked for. -/
structure TextureObject.Describes (texture : TextureObject) (createInfo : VkImageCreateInfo)
    (image : VkImage) : Prop where
  textureId : texture.textureId = image
  width : texture.width = createInfo.width
  height : texture.height = createInfo.height
  mipCount : texture.mipCount = createInfo.mipLevels
  length_residency : texture.residency.length = createInfo.mipLevels.toNat
  not_resident : ∀ mip ∈ texture.residency, mip.isResident = false ∧ mip.dmaFenceId = 0

/-- The builder copies every field that a texture has of its create info. -/
theorem TextureObject.describes_build (createInfo : VkImageCreateInfo) (image : VkImage) :
    (TextureObject.build createInfo image).Describes createInfo image where
  textureId := rfl
  width := rfl
  height := rfl
  mipCount := rfl
  length_residency := List.length_replicate
  not_resident mip hmip := by
    rw [List.eq_of_mem_replicate hmip]
    exact ⟨rfl, rfl⟩

/-! ## Calls and their steps -/

/-- How far a call of one of the two hooks has come. -/
inductive ImageCall where
  | creating (createInfo : VkImageCreateInfo)
  | created (createInfo : VkImageCreateInfo) (image : VkImage)
  | destroying (image : VkImage)
  | unregistered (image : VkImage)
  | returned
  deriving DecidableEq

namespace ImageCall

/-- The handle of a call, while its texture is registered. -/
def tracked : ImageCall → Option VkImage
  | destroying image => some image
  | _ => none

/-- The handle of a call, while the image is live without a texture. -/
def bare : ImageCall → Option VkImage
  | created _ image => some image
  | unregistered image => some image
  | _ => none

end ImageCall

/-- The live images of the driver, the textures of the core, the handles that the
application may destroy, and the calls. -/
structure ImageRegistry where
  live : VkImage → Option VkImageCreateInfo
  textures : VkImage → Option TextureObject
  owned : List VkImage
  calls : List ImageCall

namespace ImageRegistry

/-- A new call, or a step of the driver or of the core in a call under way.  The
driver answers a creation with a handle or fails it. -/
inductive Action where
  | create (createInfo : VkImageCreateInfo)
  | destroy (image : VkImage)
  | driverCreates (i : ℕ) (answer : Option VkImage)
  | notify (i : ℕ)
  | driverDestroys (i : ℕ)

/-- No images and no calls. -/
def empty : ImageRegistry where
  live _ := none
  textures _ := none
  owned := []
  calls := []

/-- The driver answers with a handle that is neither live nor `VK_NULL_HANDLE`. -/
def driverCreates (s : ImageRegistry) (i : ℕ) (answer : Option VkImage) :
    ImageCall → Option ImageRegistry
  | .creating createInfo =>
      match answer with
      | some image =>
          if image = 0 ∨ (s.live image).isSome then none
          else some { s with
            live := Function.update s.live image (some createInfo)
            calls := s.calls.set i (.created createInfo image) }
      | none => some { s with calls := s.calls.set i .returned }
  | _ => none

/-- `notify_create_image`, with which a creation returns, or `notify_destroy_image`. -/
def notify (s : ImageRegistry) (i : ℕ) : ImageCall → Option ImageRegistry
  | .created createInfo image =>
      some { s with
        textures := Function.update s.textures image (some (.build createInfo image))
        owned := image :: s.owned
        calls := s.calls.set i .returned }
  | .destroying image =>
      some { s with
        textures := Function.update s.textures image none
        calls := s.calls.set i (.unregistered image) }
  | _ => none

/-- The driver destroys the image whose texture is gone. -/
def driverDestroys (s : ImageRegistry) (i : ℕ) : ImageCall → Option ImageRegistry
  | .unregistered image =>
      some { s with
        live := Function.update s.live image none
        calls := s.calls.set i .returned }
  | _ => none

/-- A destroy call is made with a handle that the application holds. -/
def step (s : ImageRegistry) : Action → Option ImageRegistry
  | .create createInfo => some { s with calls := s.calls ++ [.creating createInfo] }
  | .destroy image =>
      if image ∈ s.owned then
        some { s with owned := s.owned.erase image, calls := s.calls ++ [.destroying image] }
      else none
  | .driverCreates i answer => s.calls[i]?.bind (s.driverCreates i answer)
  | .notify i => s.calls[i]?.bind (s.notify i)
  | .driverDestroys i => s.calls[i]?.bind (s.driverDestroys i)

/-! ## What is asked -/

/-- No call is under way. -/
def AtRest (s : ImageRegistry) : Prop := ∀ c ∈ s.calls, c = .returned

/-- Registered textures are those of live images, with the fields of their create
infos, and at rest there is one for each of them. -/
structure Accurate (s : ImageRegistry) : Prop where
  built : ∀ image texture, s.textures image = some texture →
    ∃ createInfo, s.live image = some createInfo ∧ texture.Describes createInfo image
  exact_at_rest : s.AtRest → ∀ image, (s.textures image).isSome = (s.live image).isSome

/-! ## Who holds which handle -/

/-- The live handles with a texture and without one.  A call that has created its
image knows the create info. -/
structure Held (live : VkImage → Option VkImageCreateInfo)
    (textures : VkImage → Option TextureObject) (tracked bare : List VkImage) : Prop where
  nodup : (tracked ++ bare).Nodup
  live_iff : ∀ image, (live image).isSome ↔ image ∈ tracked ++ bare
  textures_tracked : ∀ image ∈ tracked,
    textures image = (live image).map fun createInfo => .build createInfo image
  textures_untracked : ∀ image, image ∉ tracked → textures image = none

namespace Held

variable {live : VkImage → Option VkImageCreateInfo} {textures : VkImage → Option TextureObject}
  {tracked tracked' bare bare' : List VkImage} {image : VkImage} {createInfo : VkImageCreateInfo}

/-- The order of the handles does not matter. -/
theorem perm (h : Held live textures tracked bare) (htracked : tracked'.Perm tracked)
    (hbare : bare'.Perm bare) : Held live textures tracked' bare' where
  nodup := (htracked.append hbare).nodup_iff.mpr h.nodup
  live_iff image := (h.live_iff image).trans (htracked.append hbare).mem_iff.symm
  textures_tracked image himage := h.textures_tracked image (htracked.mem_iff.mp himage)
  textures_untracked image himage :=
    h.textures_untracked image fun hmem => himage (htracked.mem_iff.mpr hmem)

/-- The driver creates an image. -/
theorem create (h : Held live textures tracked bare) (hfree : live image = none) :
    Held (Function.update live image (some createInfo)) textures tracked (image :: bare) := by
  have hnew : image ∉ tracked ++ bare := by
    rw [← h.live_iff, hfree]
    exact Bool.false_ne_true
  have hperm : (tracked ++ image :: bare).Perm (image :: (tracked ++ bare)) :=
    List.perm_middle
  refine ⟨hperm.nodup_iff.mpr (List.nodup_cons.mpr ⟨hnew, h.nodup⟩), fun other => ?_,
    fun other hother => ?_, h.textures_untracked⟩
  · rw [hperm.mem_iff, List.mem_cons]
    rcases eq_or_ne other image with rfl | hne
    · simp
    · rw [Function.update_of_ne hne, or_iff_right hne]
      exact h.live_iff other
  · have hne : other ≠ image := by
      rintro rfl
      exact hnew (List.mem_append_left bare hother)
    rw [Function.update_of_ne hne]
    exact h.textures_tracked other hother

/-- The core registers a live image. -/
theorem register (h : Held live textures tracked (image :: bare))
    (hlive : live image = some createInfo) :
    Held live (Function.update textures image (some (.build createInfo image)))
      (image :: tracked) bare := by
  have hperm : (image :: tracked ++ bare).Perm (tracked ++ image :: bare) :=
    List.perm_middle.symm
  refine ⟨hperm.nodup_iff.mpr h.nodup, fun other => (h.live_iff other).trans hperm.mem_iff.symm,
    fun other hother => ?_, fun other hother => ?_⟩
  · rcases eq_or_ne other image with rfl | hne
    · rw [Function.update_self, hlive]
      rfl
    · rw [Function.update_of_ne hne]
      exact h.textures_tracked other (List.mem_of_ne_of_mem hne hother)
  · obtain ⟨hne, hother⟩ := not_or.mp (mt List.mem_cons.mpr hother)
    rw [Function.update_of_ne hne]
    exact h.textures_untracked other hother

/-- The core unregisters an image. -/
theorem unregister (h : Held live textures (image :: tracked) bare) :
    Held live (Function.update textures image none) tracked (image :: bare) := by
  have hperm : (tracked ++ image :: bare).Perm (image :: tracked ++ bare) := List.perm_middle
  have hnew : image ∉ tracked := fun hmem =>
    (List.nodup_cons.mp h.nodup).1 (List.mem_append_left bare hmem)
  refine ⟨hperm.nodup_iff.mpr h.nodup, fun other => (h.live_iff other).trans hperm.mem_iff.symm,
    fun other hother => ?_, fun other hother => ?_⟩
  · have hne : other ≠ image := by
      rintro rfl
      exact hnew hother
    rw [Function.update_of_ne hne]
    exact h.textures_tracked other (List.mem_cons_of_mem _ hother)
  · rcases eq_or_ne other image with rfl | hne
    · exact Function.update_self _ _ _
    · rw [Function.update_of_ne hne]
      exact h.textures_untracked other (List.not_mem_cons_of_ne_of_not_mem hne hother)

/-- The driver destroys an image without a texture. -/
theorem destroy (h : Held live textures tracked (image :: bare)) :
    Held (Function.update live image none) textures tracked bare := by
  have hperm : (tracked ++ image :: bare).Perm (image :: (tracked ++ bare)) :=
    List.perm_middle
  obtain ⟨hold, hnodup⟩ := List.nodup_cons.mp (hperm.nodup_iff.mp h.nodup)
  refine ⟨hnodup, fun other => ?_, fun other hother => ?_, h.textures_untracked⟩
  · rcases eq_or_ne other image with rfl | hne
    · simp [hold]
    · rw [Function.update_of_ne hne, h.live_iff, hperm.mem_iff, List.mem_cons, or_iff_right hne]
  · have hne : other ≠ image := by
      rintro rfl
      exact hold (List.mem_append_left bare hother)
    rw [Function.update_of_ne hne]
    exact h.textures_tracked other hother

end Held

/-- What a step can do. -/
inductive Stepped (s : ImageRegistry) : Action → ImageRegistry → Prop
  | create (createInfo) :
      Stepped s (.create createInfo) { s with calls := s.calls ++ [.creating createInfo] }
  | destroy {image} (howned : image ∈ s.owned) : Stepped s (.destroy image)
      { s with owned := s.owned.erase image, calls := s.calls ++ [.destroying image] }
  | created {i createInfo image} (hcall : s.calls[i]? = some (.creating createInfo))
      (hfree : s.live image = none) : Stepped s (.driverCreates i (some image))
      { s with
        live := Function.update s.live image (some createInfo)
        calls := s.calls.set i (.created createInfo image) }
  | failed {i createInfo} (hcall : s.calls[i]? = some (.creating createInfo)) :
      Stepped s (.driverCreates i none) { s with calls := s.calls.set i .returned }
  | registered {i createInfo image} (hcall : s.calls[i]? = some (.created createInfo image)) :
      Stepped s (.notify i)
        { s with
          textures := Function.update s.textures image (some (.build createInfo image))
          owned := image :: s.owned
          calls := s.calls.set i .returned }
  | unregistered {i image} (hcall : s.calls[i]? = some (.destroying image)) :
      Stepped s (.notify i)
        { s with
          textures := Function.update s.textures image none
          calls := s.calls.set i (.unregistered image) }
  | destroyed {i image} (hcall : s.calls[i]? = some (.unregistered image)) :
      Stepped s (.driverDestroys i)
        { s with
          live := Function.update s.live image none
          calls := s.calls.set i .returned }

variable {s s' : ImageRegistry}

/-- The shapes that a step can have. -/
theorem stepped_of_step {a : Action} (h : s.step a = some s') : s.Stepped a s' := by
  cases a with
  | create createInfo =>
      obtain rfl := Option.some_injective _ h
      exact .create createInfo
  | destroy image =>
      rw [step] at h
      split at h
      · rename_i howned
        obtain rfl := Option.some_injective _ h
        exact .destroy howned
      · cases h
  | driverCreates i answer =>
      obtain ⟨call, hcall, hanswer⟩ := Option.bind_eq_some_iff.mp h
      cases call with
      | creating createInfo =>
          cases answer with
          | some image =>
              rw [driverCreates] at hanswer
              split at hanswer
              · cases hanswer
              · rename_i hfree
                obtain rfl := Option.some_injective _ hanswer
                exact .created hcall (Option.not_isSome_iff_eq_none.mp (not_or.mp hfree).2)
          | none =>
              obtain rfl := Option.some_injective _ hanswer
              exact .failed hcall
      | created _ _ | destroying _ | unregistered _ | returned => cases hanswer
  | notify i =>
      obtain ⟨call, hcall, hnotify⟩ := Option.bind_eq_some_iff.mp h
      cases call with
      | created createInfo image =>
          obtain rfl := Option.some_injective _ hnotify
          exact .registered hcall
      | destroying image =>
          obtain rfl := Option.some_injective _ hnotify
          exact .unregistered hcall
      | creating _ | unregistered _ | returned => cases hnotify
  | driverDestroys i =>
      obtain ⟨call, hcall, hdestroys⟩ := Option.bind_eq_some_iff.mp h
      cases call with
      | unregistered image =>
          obtain rfl := Option.some_injective _ hdestroys
          exact .destroyed hcall
      | creating _ | created _ _ | destroying _ | returned => cases hdestroys

/-- The handles with a texture. -/
def tracked (s : ImageRegistry) : List VkImage :=
  s.owned ++ s.calls.filterMap ImageCall.tracked

/-- The live handles without a texture. -/
def bare (s : ImageRegistry) : List VkImage := s.calls.filterMap ImageCall.bare

/-- Every live handle is held once, and a call that has created its image knows the
create info. -/
structure Consistent (s : ImageRegistry) : Prop where
  held : Held s.live s.textures s.tracked s.bare
  created : ∀ c ∈ s.calls, ∀ createInfo image, c = .created createInfo image →
    s.live image = some createInfo

/-- The empty registry is consistent. -/
theorem consistent_empty : empty.Consistent where
  held := ⟨List.nodup_nil, fun _ => iff_of_false Bool.false_ne_true List.not_mem_nil,
    nofun, fun _ _ => rfl⟩
  created := nofun

/-- The handle of another call is another one. -/
theorem Consistent.bare_ne (h : s.Consistent) {i : ℕ} {old new : ImageCall} {image : VkImage}
    (hcall : s.calls[i]? = some old) (hold : old.bare = some image) (hnew : new.bare = none)
    {c : ImageCall} (hc : c ∈ s.calls.set i new) : c.bare ≠ some image := by
  have hlost := (moved_set hcall new).filterMap_lost hnew hold
  have hnodup := hlost.nodup_iff.mp (List.nodup_append.mp h.held.nodup).2.1
  intro heq
  exact (List.nodup_cons.mp hnodup).1 (List.mem_filterMap.mpr ⟨c, hc, heq⟩)

/-- The step lemma, one case for each shape. -/
theorem consistent_step {a : Action} (h : s.Consistent) (hstep : s.step a = some s') :
    s'.Consistent := by
  cases stepped_of_step hstep with
  | create createInfo =>
      have hmoved := moved_append s.calls (.creating createInfo)
      exact ⟨h.held.perm ((hmoved.filterMap_same rfl).append_left _) (hmoved.filterMap_same rfl),
        hmoved.forall_mem h.created nofun⟩
  | @destroy image howned =>
      have hmoved := moved_append s.calls (.destroying image)
      refine ⟨h.held.perm ?_ (hmoved.filterMap_same rfl), hmoved.forall_mem h.created nofun⟩
      have hgained := hmoved.filterMap_gained (f := ImageCall.tracked) rfl rfl
      refine (hgained.append_left _).trans (List.perm_middle.trans ?_)
      exact (List.perm_cons_erase howned).symm.append_right _
  | @created i createInfo image hcall hfree =>
      have hmoved := moved_set hcall (.created createInfo image)
      refine ⟨(h.held.create hfree).perm ((hmoved.filterMap_same rfl).append_left _)
        (hmoved.filterMap_gained rfl rfl), hmoved.forall_mem (fun c hc info other heq => ?_) ?_⟩
      · -- the image of another call is live, so the driver has not handed out its handle
        have hlive := h.created c hc info other heq
        have hne : other ≠ image := by
          rintro rfl
          exact absurd (hfree.symm.trans hlive) (Option.some_ne_none info).symm
        exact (Function.update_of_ne hne _ _).trans hlive
      · rintro _ _ ⟨⟩
        exact Function.update_self _ _ _
  | @failed i createInfo hcall =>
      have hmoved := moved_set hcall .returned
      exact ⟨h.held.perm ((hmoved.filterMap_same rfl).append_left _) (hmoved.filterMap_same rfl),
        hmoved.forall_mem h.created nofun⟩
  | @registered i createInfo image hcall =>
      have hmoved := moved_set hcall .returned
      have hlive := h.created _ (List.mem_of_getElem? hcall) createInfo image rfl
      have hlost : s.bare.Perm (image :: (s.calls.set i .returned).filterMap ImageCall.bare) :=
        hmoved.filterMap_lost rfl rfl
      have hheld := (h.held.perm .rfl hlost.symm).register hlive
      exact ⟨hheld.perm (((hmoved.filterMap_same rfl).append_left _).cons image) .rfl,
        hmoved.forall_mem h.created nofun⟩
  | @unregistered i image hcall =>
      have hmoved := moved_set hcall (.unregistered image)
      have hlost : (s.calls.filterMap ImageCall.tracked).Perm
          (image :: (s.calls.set i (.unregistered image)).filterMap ImageCall.tracked) :=
        hmoved.filterMap_lost rfl rfl
      have hheld := h.held.perm
        (List.perm_middle.symm.trans (hlost.append_left s.owned).symm) .rfl
      exact ⟨hheld.unregister.perm .rfl (hmoved.filterMap_gained rfl rfl),
        hmoved.forall_mem h.created nofun⟩
  | @destroyed i image hcall =>
      have hmoved := moved_set hcall .returned
      have hlost : s.bare.Perm (image :: (s.calls.set i .returned).filterMap ImageCall.bare) :=
        hmoved.filterMap_lost rfl rfl
      have hheld := h.held.perm ((hmoved.filterMap_same rfl).append_left _) hlost.symm
      refine ⟨hheld.destroy, fun c hc info other heq => ?_⟩
      -- two calls never hold the same handle without a texture
      have hne : other ≠ image := by
        rintro rfl
        exact h.bare_ne hcall rfl rfl hc (by rw [heq]; rfl)
      refine (Function.update_of_ne hne _ _).trans ?_
      exact hmoved.forall_mem h.created nofun c hc info other heq

/-- The textures are those of the live images, each as its create info says. -/
theorem Consistent.accurate (h : s.Consistent) : s.Accurate where
  built image texture htexture := by
    have hmem : image ∈ s.tracked := by
      by_contra hnot
      exact Option.some_ne_none texture (htexture.symm.trans (h.held.textures_untracked image hnot))
    rw [h.held.textures_tracked image hmem, Option.map_eq_some_iff] at htexture
    obtain ⟨createInfo, hlive, rfl⟩ := htexture
    exact ⟨createInfo, hlive, TextureObject.describes_build createInfo image⟩
  exact_at_rest hrest image := by
    have hbare : s.bare = [] := by
      refine List.filterMap_eq_nil_iff.mpr fun c hc => ?_
      rw [hrest c hc]
      rfl
    by_cases hmem : image ∈ s.tracked
    · rw [h.held.textures_tracked image hmem, Option.isSome_map]
    · have hlive := h.held.live_iff image
      rw [hbare, List.append_nil] at hlive
      rw [h.held.textures_untracked image hmem]
      exact (Bool.eq_false_of_not_eq_true (mt hlive.mp hmem)).symm

/-- **The registry tracks exactly the live images.** -/
theorem registry_accurate {actions : List Action} (h : exec step empty actions = some s) :
    s.Accurate :=
  (invariant_of_exec step (fun _ _ _ hs ha => consistent_step hs ha) consistent_empty h).accurate

/-- The driver hands out the handle of an image that it has just destroyed, to a
creation that was under way: the texture is the one of the new image. -/
theorem registry_accurate_reused :
    ∃ s texture, exec step empty [.create ⟨4, 4, 1⟩, .create ⟨8, 16, 2⟩,
      .driverCreates 0 (some 5), .notify 0, .destroy 5, .notify 2, .driverDestroys 2,
      .driverCreates 1 (some 5), .notify 1] = some s ∧ s.Accurate ∧
      s.textures 5 = some texture ∧ texture.textureId = 5 ∧ texture.width = 8 ∧
      texture.height = 16 ∧ texture.mipCount = 2 ∧
      texture.residency.map MipResidencyState.isResident = [false, false] := by
  obtain ⟨s, hrun, htexture⟩ : ∃ s, exec step empty [.create ⟨4, 4, 1⟩, .create ⟨8, 16, 2⟩,
      .driverCreates 0 (some 5), .notify 0, .destroy 5, .notify 2, .driverDestroys 2,
      .driverCreates 1 (some 5), .notify 1] = some s ∧
      s.textures 5 = some (.build ⟨8, 16, 2⟩ 5) :=
    ⟨_, rfl, rfl⟩
  exact ⟨s, _, hrun, registry_accurate hrun, htexture, rfl, rfl, rfl, rfl, rfl⟩

end ImageRegistry

end Synapse.Layer
