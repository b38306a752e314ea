/-! # An example configuration

A configuration file to start from, with every section and the common settings of a record. -/

namespace PoolControl.Configuration

/-- The lines of the example. -/
def exampleLines : List String := [
  "# DynamicTp Configuration",
  "# Environment variables (DTP_*) override these settings",
  "",
  "[dispatcher]",
  "backlog_capacity = 1024",
  "",
  "[alarm]",
  "enabled = true",
  "check_interval_seconds = 5",
  "",
  "[watch]",
  "enabled = true",
  "poll_interval_seconds = 10",
  "",
  "[dtp]",
  "enabled = true",
  "",
  "[[dtp.platforms]]",
  "platform = \"webhook\"",
  "webhook_url = \"https://alerts.example.com/hooks/dtp\"",
  "receivers = [\"ops\"]",
  "",
  "[[dtp.platforms]]",
  "platform = \"log\"",
  "",
  "[[dtp.executors]]",
  "thread_pool_name = \"order-executor\"",
  "core_pool_size = 4",
  "maximum_pool_size = 8",
  "queue_capacity = 2048",
  "queue_type = \"VariableLinkedBlockingQueue\"",
  "keep_alive_time = 60",
  "unit = \"SECONDS\"",
  "allow_core_thread_timeout = false",
  "rejected_handler_type = \"CallerRunsPolicy\"",
  "wait_for_tasks_to_complete_on_shutdown = true",
  "await_termination_seconds = 5",
  "",
  "[[dtp.executors.notify_items]]",
  "type = \"change\"",
  "enabled = true",
  "",
  "[[dtp.executors.notify_items]]",
  "type = \"capacity\"",
  "threshold = 80",
  "interval = 60"]

/-- The example as a file. -/
def exampleText : String := String.join (exampleLines.map (· ++ "\n"))

end PoolControl.Configuration
