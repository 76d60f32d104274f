import ClusterRegistry.Tree

/-!
The records that rebuild a tree from nothing: everything is discarded, then each bucket gets its
fields and after them its children, every child before what is in it.
-/
namespace ClusterRegistry.Bucket

def fieldRecords (path : BucketPath) (bucket : Bucket) : List Record :=
  bucket.fields.map fun field => .put path field.1 field.2

mutual
def itemRecords (path : BucketPath) (key : Key) : Item → List Record
  | .value _ => []
  | .bucket entries =>
    .createBucket path key ::
      (fieldRecords (path ++ [key]) entries ++ childRecords (path ++ [key]) entries)

def childRecords (path : BucketPath) : List (Key × Item) → List Record
  | [] => []
  | (key, item) :: rest => itemRecords path key item ++ childRecords path rest
end

def snapshot (tree : Bucket) : List Record :=
  .checkpoint :: (fieldRecords [] tree ++ childRecords [] tree)

end ClusterRegistry.Bucket
