import PriceQuote.Catalog.Basic
import PriceQuote.Binary64.Decimal

/-!
# The standard catalog

The products and the advice in use where no catalog is configured.
-/

namespace PriceQuote.Catalog

def choice (id name : String) (price : Binary64) (category : Option String)
    (dependencies conflicts : List String := []) : AddOn :=
  { id := ⟨id⟩
    name := name
    price := price
    required := false
    category := category
    dependencies := dependencies.map AddOnId.mk
    conflicts := conflicts.map AddOnId.mk }

/-- An add-on that a standard product cannot be had without. -/
def mandatory (id name : String) (price : Binary64) (category : Option String) : AddOn :=
  { choice id name price category with required := true }

def offer (id name description : String) (basePrice : Binary64) (category : String)
    (addOns : List AddOn) : Product :=
  { id := ⟨id⟩
    name := name
    description := description
    basePrice := basePrice
    category := category
    addOns := addOns
    metadata := [] }

def advise (category addOn message : String) : Advisory :=
  { category := category
    unlessAddOn := some ⟨addOn⟩
    field := "selectedOptions"
    message := message }

def standardProducts : List Product :=
  [ offer "compute-standard" "Standard Compute" "General purpose virtual machine" 50 "compute"
      [ choice "linux" "Linux" 0 "os" [] ["windows"],
        choice "windows" "Windows Server" 25 "os",
        choice "ssd-storage" "SSD Storage" 10 "storage",
        choice "backup" "Daily Backup" 8 "storage" ["ssd-storage"],
        choice "priority-support" "Priority Support" 30 "support",
        choice "spot-capacity" "Spot Capacity" (-15) "pricing" [] ["priority-support"] ],
    offer "compute-gpu" "GPU Compute" "Accelerated instance for training and inference" 400
      "compute"
      [ mandatory "gpu-driver" "Managed GPU Driver" 0 "runtime",
        choice "nvlink" "NVLink Interconnect" 120 "hardware",
        choice "multi-gpu" "Multi-GPU Node" 350 "hardware" ["nvlink"],
        choice "priority-support" "Priority Support" 60 "support" ],
    offer "database-postgres" "Managed PostgreSQL"
      "Relational database with automated maintenance" 80 "database"
      [ mandatory "encryption-at-rest" "Encryption at Rest" 0 "security",
        choice "automated-backup" "Automated Backup" 15 "durability",
        choice "high-availability" "High Availability" 60 "durability" ["automated-backup"],
        choice "read-replica" "Read Replica" 40 "scaling" ["high-availability"],
        choice "priority-support" "Priority Support" 30 "support" ],
    offer "database-redis" "Managed Redis" "In-memory key value store" 45 "database"
      [ choice "persistence" "Persistence" 10 "durability",
        choice "cluster-mode" "Cluster Mode" 35 "scaling" [] ["single-node"],
        choice "single-node" "Single Node Discount" (-5) "pricing" ],
    offer "storage-object" "Object Storage" "S3 compatible object storage" 20 "storage"
      [ choice "versioning" "Versioning" 5 none,
        choice "cdn" "CDN Distribution" 25 none,
        choice "archive-tier" "Archive Tier" (-4) none [] ["cdn"] ],
    offer "support-business" "Business Support" "Guaranteed response times and a support portal"
      100 "support"
      [ choice "around-the-clock" "24x7 Coverage" 150 none,
        choice "technical-account-manager" "Technical Account Manager" 500 none
          ["around-the-clock"] ] ]

def standardAdvisories : List Advisory :=
  [ advise "database" "automated-backup"
      "Automated Backup is recommended for production databases",
    advise "compute" "priority-support"
      "Consider Priority Support or a Business Support plan for compute workloads" ]

def standard : Catalog :=
  ⟨standardProducts, standardAdvisories⟩

end PriceQuote.Catalog
