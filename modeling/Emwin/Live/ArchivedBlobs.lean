/-
# The blobs of archived products

A product that is received twice is archived twice under the same paths.  If the second
request uses up its retries behind the first, its cleanup deletes the blobs of the first,
which has been persisted (`redelivery_loses_blobs`).  The blobs are kept throughout a run
exactly if the script of failures spares them at each request (`archived_blobs_kept_iff`).
-/
import Emwin.Live.StoragePlan
import Emwin.Persist.Retention

namespace Live

open Persist

/-- The requests that are built for some files: their names, bytes, and metadata. -/
def archiveRequests (metadataJsonBytes : CompletedFileMetadata → Option (List UInt8))
    (files : List (Str × List UInt8 × CompletedFileMetadata)) :
    List (BlobRequest CompletedFileMetadata) :=
  files.filterMap fun (filename, data, metadata) =>
    buildPersistRequest metadataJsonBytes filename data metadata

/-- Throughout the archiving of some files, the blobs of the persisted requests are in the store
exactly if, at each request, the script that uses up its retries does not go on to delete under a
key of a request persisted before. -/
theorem archived_blobs_kept_iff
    (metadataJsonBytes : CompletedFileMetadata → Option (List UInt8))
    (w : ObjectStoreBlobWriter) (script : Script) (config : PersistenceConfig)
    (files : List (Str × List UInt8 × CompletedFileMetadata)) :
    (∀ processed, processed <+: archiveRequests metadataJsonBytes files →
      PersistedKept w (runWorker w script config processed)) ↔
    ∀ processed request, processed ++ [request] <+: archiveRequests metadataJsonBytes files →
      Spares w script config (runWorker w script config processed) request :=
  persistedKept_iff _

/-- A store in a bucket. -/
def bucket : ObjectStoreBlobWriter := ⟨none, "s3://archive".toList⟩

/-- The persistence of the metadata fails once, at the second request. -/
def secondPersistFails : Script := ⟨fun n => if n = 5 then .retryable else .ok, fun _ => false⟩

/-- One file, received twice. -/
def redelivery : List (Str × List UInt8 × CompletedFileMetadata) :=
  List.replicate 2 ("AFDBOX.TXT".toList, "payload".toUTF8.toList,
    ⟨"AFDBOX.TXT".toList, 7, 1, .qbt, ⟨some "BOX".toList, some "afd".toList⟩⟩)

/-- The cleanup of the second request deletes the blobs of the first, which was persisted. -/
theorem redelivery_loses_blobs :
    ¬ ∀ (metadataJsonBytes : CompletedFileMetadata → Option (List UInt8))
      (w : ObjectStoreBlobWriter) (script : Script) (config : PersistenceConfig)
      (files : List (Str × List UInt8 × CompletedFileMetadata)),
      PersistedKept w (runWorker w script config (archiveRequests metadataJsonBytes files)) := by
  intro hkept
  have hrun := hkept (fun _ => some "\x7b\x7d".toUTF8.toList) bucket secondPersistFails ⟨1⟩
    redelivery "qbt/1970/01/01/BOX/afd/19700101T000001Z-422c6a15-AFDBOX.TXT".toList
  have hpersisted : Persisted bucket
      (runWorker bucket secondPersistFails ⟨1⟩
        (archiveRequests (fun _ => some "\x7b\x7d".toUTF8.toList) redelivery))
      "qbt/1970/01/01/BOX/afd/19700101T000001Z-422c6a15-AFDBOX.TXT".toList := by
    have hdone : (runWorker bucket secondPersistFails ⟨1⟩
        (archiveRequests (fun _ => some "\x7b\x7d".toUTF8.toList) redelivery)).done.any
          (fun d => decide (d.2 = .persisted) && d.1.blobs.any fun entry =>
            decide (bucket.key entry =
              "qbt/1970/01/01/BOX/afd/19700101T000001Z-422c6a15-AFDBOX.TXT".toList)) = true := by
      decide +kernel
    simp only [List.any_eq_true, Bool.and_eq_true, decide_eq_true_eq] at hdone
    obtain ⟨⟨request, outcome⟩, hmem, rfl, hblob⟩ := hdone
    exact ⟨request, hmem, hblob⟩
  exact absurd (hrun hpersisted) (by decide +kernel)

end Live
